import DeviceEvents.Json.Record
import DeviceEvents.Proofs.Json.Scanning
/-
  DeviceEvents.Proofs.Json.Reading — readers on the tokens that a value is written with.

  `Gathers` and `Lists` say how a reader goes through the members of an object and the items
  of an array, one after the other; from them `members` and `items` take the whole of it and
  leave what stands behind. A value that opens no more brackets inside each other than there
  is room for is read as it was written, its names and their order included.
-/

namespace DeviceEvents.Json

variable {α σ : Type}

/-! ## Members and items -/

/-- The members are taken one after the other, from `s` to `s'`. -/
inductive Gathers (step : σ → String → Except Fault (Taking σ)) : σ → List Member → σ → Prop where
  | nil (s : σ) : Gathers step s [] s
  | cons {s s' s'' : σ} {k : String} {v : Value} {ms : List Member} {take : Taking σ}
      (name : step s k = .ok take) (value : ∀ rest, take (v.tokens ++ rest) = .ok (s', rest))
      (others : Gathers step s' ms s'') : Gathers step s ((k, v) :: ms) s''

/-- The items are taken one after the other, from `s` to `s'`. -/
inductive Lists (step : σ → Taking σ) : σ → List Value → σ → Prop where
  | nil (s : σ) : Lists step s [] s
  | cons {s s' s'' : σ} {v : Value} {vs : List Value}
      (item : ∀ rest, step s (v.tokens ++ rest) = .ok (s', rest)) (others : Lists step s' vs s'') :
      Lists step s (v :: vs) s''

/-- A value does not begin with the end of an array. -/
theorem Value.tokens_front (v : Value) : ∃ t ts, v.tokens = t :: ts ∧ t ≠ .rbracket := by
  cases v <;> exact ⟨_, _, rfl, nofun⟩

namespace Reader

theorem membersFrom_gathers {step : σ → String → Except Fault (Taking σ)} {s s' : σ} {ms : List Member}
    (h : Gathers step s ms s') (hne : ms ≠ []) {fuel : Nat} (hfuel : ms.length ≤ fuel) (rest : List Token) :
    membersFrom step fuel s (Value.memberTokens ms ++ rest) = .ok (s', rest) := by
  induction h generalizing fuel with
  | nil => exact absurd rfl hne
  | @cons s s' s'' k v ms take name value others ih =>
    obtain ⟨fuel, rfl⟩ : ∃ n, fuel = n + 1 := ⟨fuel - 1, by rw [List.length_cons] at hfuel; omega⟩
    cases others with
    | nil =>
      have hvalue := value (.rbrace :: rest)
      simp only [Value.memberTokens, List.cons_append, List.append_assoc, List.nil_append, membersFrom, name, hvalue,
        bind, Except.bind, pure, Except.pure]
    | @cons _ _ _ k' v' ms' take' name' value' others' =>
      have hvalue := value (.comma :: (Value.memberTokens ((k', v') :: ms') ++ rest))
      have hothers := ih nofun (Nat.le_of_succ_le_succ hfuel)
      simp only [Value.memberTokens, List.cons_append, List.append_assoc, membersFrom, name, hvalue, hothers,
        bind, Except.bind]

theorem members_gathers {step : σ → String → Except Fault (Taking σ)} {s s' : σ} {ms : List Member}
    (h : Gathers step s ms s') (rest : List Token) :
    members step s (Value.memberTokens ms ++ rest) = .ok (s', rest) := by
  have hlong : ∀ ms : List Member, ms.length ≤ (Value.memberTokens ms ++ rest).length := by
    intro ms
    induction ms with
    | nil => exact Nat.zero_le _
    | cons m ms ih =>
      cases ms with
      | nil => simp [Value.memberTokens]
      | cons m' ms =>
        simp only [Value.memberTokens, List.length_append, List.length_cons] at ih ⊢
        omega
  cases h with
  | nil => rfl
  | @cons _ _ _ k v ms take name value others =>
    have hmembers := membersFrom_gathers (.cons name value others) nofun (hlong ((k, v) :: ms)) rest
    unfold members
    split
    · rename_i hopen
      cases ms <;> simp [Value.memberTokens] at hopen
    · exact hmembers

theorem itemsFrom_lists {step : σ → Taking σ} {s s' : σ} {vs : List Value} (h : Lists step s vs s') (hne : vs ≠ [])
    {fuel : Nat} (hfuel : vs.length ≤ fuel) (rest : List Token) :
    itemsFrom step fuel s (Value.itemTokens vs ++ rest) = .ok (s', rest) := by
  induction h generalizing fuel with
  | nil => exact absurd rfl hne
  | cons item others ih =>
    obtain ⟨fuel, rfl⟩ : ∃ n, fuel = n + 1 := ⟨fuel - 1, by rw [List.length_cons] at hfuel; omega⟩
    cases others with
    | nil =>
      have hitem := item (.rbracket :: rest)
      simp only [Value.itemTokens, List.append_assoc, List.singleton_append, itemsFrom, hitem, bind,
        Except.bind, pure, Except.pure]
    | @cons _ _ _ v' vs' item' others' =>
      have hitem := item (.comma :: (Value.itemTokens (v' :: vs') ++ rest))
      have hothers := ih nofun (Nat.le_of_succ_le_succ hfuel)
      simp only [Value.itemTokens, List.append_assoc, List.cons_append, itemsFrom, hitem, hothers, bind,
        Except.bind]

theorem items_lists {step : σ → Taking σ} {s s' : σ} {vs : List Value} (h : Lists step s vs s') (rest : List Token) :
    items step s (Value.itemTokens vs ++ rest) = .ok (s', rest) := by
  have hlong : ∀ vs : List Value, vs.length ≤ (Value.itemTokens vs ++ rest).length := by
    intro vs
    induction vs with
    | nil => exact Nat.zero_le _
    | cons v vs ih =>
      cases vs with
      | nil => simp only [Value.itemTokens, List.length_append, List.length_cons]; omega
      | cons v' vs =>
        simp only [Value.itemTokens, List.length_append, List.length_cons] at ih ⊢
        omega
  cases h with
  | nil => rfl
  | @cons _ _ _ v vs item others =>
    have hitems := itemsFrom_lists (.cons item others) nofun (hlong (v :: vs)) rest
    obtain ⟨t, ts, hv, ht⟩ := Value.tokens_front v
    unfold items
    split
    · rename_i hclose
      cases vs <;> simp [Value.itemTokens, hv, ht] at hclose
    · exact hitems

end Reader

/-! ## Whole values -/

namespace Value

mutual

/-- How many arrays and objects stand open inside each other. -/
def depth : Value → Nat
  | .arr items => itemsDepth items + 1
  | .obj members => membersDepth members + 1
  | _ => 0

def itemsDepth : List Value → Nat
  | [] => 0
  | v :: vs => max v.depth (itemsDepth vs)

def membersDepth : List (String × Value) → Nat
  | [] => 0
  | (_, v) :: ms => max v.depth (membersDepth ms)

end

/-- What `read` does with the items of an array. -/
def readItem (room : Nat) (vs : List Value) : Taking (List Value) := fun ts => do
  let (v, ts) ← Value.read room ts
  return (v :: vs, ts)

/-- What `read` does with the members of an object. -/
def readMember (room : Nat) (ms : List Member) (k : String) : Except Fault (Taking (List Member)) :=
  .ok fun ts => do
    let (v, ts) ← Value.read room ts
    return ((k, v) :: ms, ts)

theorem read_arr (room : Nat) (ts : List Token) :
    read (room + 1) (.lbracket :: ts) = (do
      let (vs, ts) ← Reader.items (readItem room) [] ts
      return (.arr vs.reverse, ts)) := rfl

theorem read_obj (room : Nat) (ts : List Token) :
    read (room + 1) (.lbrace :: ts) = (do
      let (ms, ts) ← Reader.members (readMember room) [] ts
      return (.obj ms.reverse, ts)) := rfl

mutual

theorem read_tokens (v : Value) {room : Nat} (h : v.depth ≤ room) (rest : List Token) :
    read room (v.tokens ++ rest) = .ok (v, rest) := by
  match v with
  | .null => cases room <;> rfl
  | .bool b => cases room <;> rfl
  | .num n => cases room <;> rfl
  | .str s => cases room <;> rfl
  | .arr items =>
    cases room with
    | zero => rw [depth] at h; cases h
    | succ room =>
      have hdepth : itemsDepth items ≤ room := by rw [depth] at h; omega
      have hitems := Reader.items_lists (lists_items items hdepth []) rest
      simp only [tokens, List.cons_append, read_arr, hitems, bind, Except.bind, pure, Except.pure,
        List.append_nil, List.reverse_reverse]
  | .obj members =>
    cases room with
    | zero => rw [depth] at h; cases h
    | succ room =>
      have hdepth : membersDepth members ≤ room := by rw [depth] at h; omega
      have hmembers := Reader.members_gathers (gathers_members members hdepth []) rest
      simp only [tokens, List.cons_append, read_obj, hmembers, bind, Except.bind, pure, Except.pure,
        List.append_nil, List.reverse_reverse]

theorem lists_items (items : List Value) {room : Nat} (h : itemsDepth items ≤ room) (done : List Value) :
    Lists (readItem room) done items (items.reverse ++ done) := by
  match items with
  | [] => exact .nil done
  | v :: vs =>
    rw [itemsDepth] at h
    have hv := read_tokens v (Nat.le_trans (Nat.le_max_left ..) h)
    have hvs := lists_items vs (Nat.le_trans (Nat.le_max_right ..) h) (v :: done)
    rw [List.reverse_cons, List.append_assoc]
    exact .cons (fun rest => by rw [readItem, hv]; rfl) hvs

theorem gathers_members (members : List (String × Value)) {room : Nat} (h : membersDepth members ≤ room)
    (done : List Member) : Gathers (readMember room) done members (members.reverse ++ done) := by
  match members with
  | [] => exact .nil done
  | (k, v) :: ms =>
    rw [membersDepth] at h
    have hv := read_tokens v (Nat.le_trans (Nat.le_max_left ..) h)
    have hms := gathers_members ms (Nat.le_trans (Nat.le_max_right ..) h) ((k, v) :: done)
    rw [List.reverse_cons, List.append_assoc]
    exact .cons rfl (fun rest => by simp only [hv]; rfl) hms

end

/-- What a reader makes of the tokens of a value it makes of its text. -/
theorem run_render {r : Reader α} {v : Value} (hv : v.Legible) {a : α}
    (hr : ∀ rest, r nestingLimit (v.tokens ++ rest) = .ok (a, rest)) : r.run v.render = .ok a := by
  have hall := hr []
  rw [List.append_nil] at hall
  simp only [Reader.run, Reader.runTokens, scan_render hv, hall, bind, Except.bind, List.isEmpty_nil, if_true]
  rfl

/-- A value is read from its text as it was, if its numbers are and if it is no deeper than
readers go. -/
theorem parse_render {v : Value} (hv : v.Legible) (hdepth : v.depth ≤ nestingLimit) : Value.parse v.render = .ok v :=
  run_render hv fun rest => read_tokens v hdepth rest

/-! ## Which values are legible -/

/-- Every number in the value is as `P` says. -/
def Holds (P : Number → Prop) (v : Value) : Prop := ∀ n, Token.number (some n) ∈ v.tokens → P n

variable {P : Number → Prop}

theorem holds_null : Holds P .null := by
  intro n h
  simp [tokens] at h

theorem holds_str (s : String) : Holds P (.str s) := by
  intro n h
  simp [tokens] at h

theorem holds_num {n : Number} (h : P n) : Holds P (.num n) := by
  intro m hm
  simp only [tokens, List.mem_singleton, Token.number.injEq, Option.some.injEq] at hm
  exact hm ▸ h

theorem holds_ofOption {f : α → Value} (o : Option α) (h : ∀ a ∈ o, (f a).Holds P) : (ofOption f o).Holds P := by
  cases o with
  | none => exact holds_null
  | some a => exact h a rfl

theorem holds_obj {ms : List Member} (h : ∀ m ∈ ms, m.2.Holds P) : Holds P (.obj ms) := by
  have hmembers : ∀ n, Token.number (some n) ∈ memberTokens ms → P n := by
    induction ms with
    | nil => intro n hn; simp [memberTokens] at hn
    | cons m ms ih =>
      intro n hn
      have hm := h m (List.mem_cons_self ..)
      have hms := ih fun m' hm' => h m' (List.mem_cons_of_mem _ hm')
      cases ms with
      | nil => exact hm n (by simpa [memberTokens] using hn)
      | cons m' ms =>
        rcases (by simpa [memberTokens] using hn :
          Token.number (some n) ∈ m.2.tokens ∨ Token.number (some n) ∈ memberTokens (m' :: ms)) with hn | hn
        · exact hm n hn
        · exact hms n hn
  intro n hn
  exact hmembers n (by simpa [tokens] using hn)

theorem legible_str (s : String) : Legible (.str s) := holds_str s

theorem legible_num {n : Number} (h : n.ReadsBack) : Legible (.num n) := holds_num h

theorem legible_ofOption {f : α → Value} (o : Option α) (h : ∀ a ∈ o, (f a).Legible) : (ofOption f o).Legible :=
  holds_ofOption o h

theorem legible_obj {ms : List Member} (h : ∀ m ∈ ms, m.2.Legible) : Legible (.obj ms) := holds_obj h

end Value

/-! ## Leaves and structures -/

/-- A value without brackets is taken by a leaf. -/
theorem Reader.leaf_tokens (l : Leaf α) {v : Value} (hv : v.depth = 0) {a : α} (ha : l v.found = .ok a) (room : Nat)
    (rest : List Token) : Reader.leaf l room (v.tokens ++ rest) = .ok (a, rest) := by
  cases v with
  | arr | obj => rw [Value.depth] at hv; cases hv
  | _ =>
    simp only [Value.found] at ha
    simp only [Value.tokens, List.singleton_append, Reader.leaf, Token.found?, Option.map_some, ha]
    rfl

namespace Record

/-- Members of known names, none of them met before, are put one after the other. -/
theorem ofMembers_fresh (r : Record σ α) (put : σ → String → Value → Except DataFault σ) (s : σ) {seen : List String}
    {ms : List Member} (hknown : ∀ m ∈ ms, r.has m.1 = true) (hfresh : (ms.map (·.1)).Nodup)
    (hseen : ∀ m ∈ ms, m.1 ∉ seen) : r.ofMembers put s seen ms = ms.foldlM (fun s m => put s m.1 m.2) s := by
  induction ms generalizing s seen with
  | nil => rfl
  | cons m ms ih =>
    obtain ⟨k, v⟩ := m
    have hk : r.has k = true := hknown _ (List.mem_cons_self ..)
    have hunseen : seen.contains k = false := by simpa using hseen _ (List.mem_cons_self ..)
    rw [List.map_cons, List.nodup_cons] at hfresh
    have hothers : ∀ m ∈ ms, m.1 ∉ k :: seen := by
      intro m hm hmem
      rcases List.mem_cons.1 hmem with h | h
      · exact hfresh.1 (List.mem_map.2 ⟨m, hm, h⟩)
      · exact hseen m (List.mem_cons_of_mem _ hm) h
    simp only [ofMembers, hk, hunseen, if_true, if_false, Bool.false_eq_true, List.foldlM_cons]
    refine congrArg _ (funext fun s => ?_)
    exact ih s (fun m hm => hknown m (List.mem_cons_of_mem _ hm)) hfresh.2 hothers

/-- An object with exactly the fields of the structure. -/
theorem ofValue_fields (r : Record σ α) (put : σ → String → Value → Except DataFault σ) {ms : List Member}
    (hnames : ms.map (·.1) = r.fields.map (·.name)) (hnodup : (r.fields.map (·.name)).Nodup) :
    r.ofValue put (.obj ms) = (ms.foldlM (fun s m => put s m.1 m.2) r.start >>= r.finish) := by
  have hknown : ∀ m ∈ ms, r.has m.1 = true := by
    intro m hm
    have hname : m.1 ∈ r.fields.map (·.name) := hnames ▸ List.mem_map_of_mem hm
    obtain ⟨f, hf, hfm⟩ := List.mem_map.1 hname
    exact List.any_eq_true.2 ⟨f, hf, beq_iff_eq.2 hfm⟩
  rw [Record.ofValue, ofMembers_fresh r put r.start hknown (hnames ▸ hnodup) (by simp)]

end Record
end DeviceEvents.Json
