import DeviceEvents.Proofs.Json.Reading
import Mathlib.Data.List.Nodup
/-
  DeviceEvents.Proofs.Json.Retelling — values that say the same with their members in another
  order, and without those that are `null`.

  `ToldBy v w`: `w` says what `v` says. Where `v` is an object, `w` has no name twice and no
  name of its own, says under each what `v` says there, and lacks one only where `v` has
  `null`: its members are those of `v` in any order, without some that are `null` (`of_perm`).
  Such a value is no deeper than what it tells (`depth_le`), as legible (`legible`), and its
  canonical form tells the same (`canonical`). Arrays are not told.

  What reads an object member by member has to make the same of it. That needs two things of
  the fields: under different names they are put into different places (`PutApart`), and a
  `null` leaves its place as it was. Then the members may come in any order
  (`putAll_perm`) and with or without their `null`s (`putAll_told`); so a structure is read
  alike from all that tells its fields (`Record.ofValue_told`).
-/

namespace DeviceEvents.Json

variable {α β σ : Type}

/-! ## Telling the same -/

namespace Value

inductive ToldBy : Value → Value → Prop where
  | leaf {v : Value} (h : v.depth = 0) : ToldBy v v
  | object {full ms : List Member} (distinct : (ms.map (·.1)).Nodup)
      (kept : ∀ m ∈ full, m.2 = .null ∨ m.1 ∈ ms.map (·.1)) (known : ∀ n ∈ ms, n.1 ∈ full.map (·.1))
      (told : ∀ m ∈ full, ∀ n ∈ ms, n.1 = m.1 → ToldBy m.2 n.2) : ToldBy (.obj full) (.obj ms)

theorem ToldBy.leaf_eq {v w : Value} (h : v.ToldBy w) (hv : v.depth = 0) : w = v := by
  cases h with
  | leaf => rfl
  | object => cases hv

/-- An object tells another when it has its members in any order, without some that are `null`. -/
theorem ToldBy.of_perm {full left ms : List Member} (h : full.Perm (left ++ ms)) (hnames : (full.map (·.1)).Nodup)
    (hleft : ∀ m ∈ left, m.2 = .null) (hself : ∀ m ∈ full, m.2.ToldBy m.2) : (Value.obj full).ToldBy (.obj ms) := by
  have hmem : ∀ n ∈ ms, n ∈ full := fun n hn => h.mem_iff.2 (List.mem_append_right _ hn)
  have hdistinct := (h.map (·.1)).nodup_iff.1 hnames
  rw [List.map_append] at hdistinct
  refine .object (List.nodup_append.1 hdistinct).2.1 ?_ ?_ ?_
  · intro m hm
    rcases List.mem_append.1 (h.mem_iff.1 hm) with hm | hm
    · exact .inl (hleft m hm)
    · exact .inr (List.mem_map_of_mem hm)
  · intro n hn
    exact List.mem_map_of_mem (hmem n hn)
  · intro m hm n hn hname
    rw [List.inj_on_of_nodup_map hnames (hmem n hn) hm hname]
    exact hself m hm

theorem ToldBy.self {full : List Member} (hnames : (full.map (·.1)).Nodup) (hself : ∀ m ∈ full, m.2.ToldBy m.2) :
    (Value.obj full).ToldBy (.obj full) :=
  .of_perm (show full.Perm ([] ++ full) from .refl full) hnames nofun hself

/-- Where nothing is `null` and nothing has brackets there is but the order. -/
theorem ToldBy.perm {full ms : List Member} (h : (Value.obj full).ToldBy (.obj ms)) (hnames : (full.map (·.1)).Nodup)
    (hleaves : ∀ m ∈ full, m.2.depth = 0 ∧ m.2 ≠ .null) : ms.Perm full := by
  cases h with
  | leaf h => cases h
  | object distinct kept known told =>
    refine (List.perm_ext_iff_of_nodup (distinct.of_map _) (hnames.of_map _)).2 fun n => ⟨?_, ?_⟩
    · intro hn
      obtain ⟨m, hm, hname⟩ := List.mem_map.1 (known n hn)
      have hvalue := (told m hm n hn hname.symm).leaf_eq (hleaves m hm).1
      rwa [show n = m from Prod.ext hname.symm hvalue]
    · intro hm
      obtain ⟨x, hx, hname⟩ := List.mem_map.1 ((kept n hm).resolve_left (hleaves n hm).2)
      have hvalue := (told n hm x hx hname).leaf_eq (hleaves n hm).1
      rwa [← show x = n from Prod.ext hname hvalue]

/-- The members of which names are kept are told too. -/
theorem ToldBy.filter {full ms : List Member} (h : (Value.obj full).ToldBy (.obj ms)) (p : String → Bool) :
    (Value.obj (full.filter fun m => p m.1)).ToldBy (.obj (ms.filter fun n => p n.1)) := by
  cases h with
  | leaf h => cases h
  | object distinct kept known told =>
    refine .object (distinct.sublist (List.filter_sublist.map _)) ?_ ?_ ?_
    · intro m hm
      obtain ⟨hm, hp⟩ := List.mem_filter.1 hm
      refine (kept m hm).imp_right fun hmem => ?_
      obtain ⟨n, hn, hname⟩ := List.mem_map.1 hmem
      exact List.mem_map.2 ⟨n, List.mem_filter.2 ⟨hn, hname ▸ hp⟩, hname⟩
    · intro n hn
      obtain ⟨hn, hp⟩ := List.mem_filter.1 hn
      obtain ⟨m, hm, hname⟩ := List.mem_map.1 (known n hn)
      exact List.mem_map.2 ⟨m, List.mem_filter.2 ⟨hm, hname ▸ hp⟩, hname⟩
    · intro m hm n hn
      exact told m (List.mem_of_mem_filter hm) n (List.mem_of_mem_filter hn)

/-! ## Depth and legibility -/

theorem depth_le_membersDepth {ms : List Member} {m : Member} (h : m ∈ ms) : m.2.depth ≤ membersDepth ms := by
  induction ms with
  | nil => cases h
  | cons n ms ih =>
    rw [membersDepth]
    rcases List.mem_cons.1 h with rfl | h
    · exact Nat.le_max_left ..
    · exact Nat.le_trans (ih h) (Nat.le_max_right ..)

theorem membersDepth_le {ms : List Member} {d : Nat} (h : ∀ m ∈ ms, m.2.depth ≤ d) : membersDepth ms ≤ d := by
  induction ms with
  | nil => exact Nat.zero_le d
  | cons n ms ih =>
    rw [membersDepth]
    exact Nat.max_le.2 ⟨h n (List.mem_cons_self ..), ih fun m hm => h m (List.mem_cons_of_mem _ hm)⟩

theorem itemsDepth_le {vs : List Value} {d : Nat} (h : ∀ v ∈ vs, v.depth ≤ d) : itemsDepth vs ≤ d := by
  induction vs with
  | nil => exact Nat.zero_le d
  | cons v vs ih =>
    rw [itemsDepth]
    exact Nat.max_le.2 ⟨h v (List.mem_cons_self ..), ih fun w hw => h w (List.mem_cons_of_mem _ hw)⟩

theorem ToldBy.depth_le {v w : Value} (h : v.ToldBy w) : w.depth ≤ v.depth := by
  induction h with
  | leaf => exact Nat.le_refl _
  | object distinct kept known told ih =>
    rw [depth, depth]
    refine Nat.succ_le_succ (membersDepth_le fun n hn => ?_)
    obtain ⟨m, hm, hname⟩ := List.mem_map.1 (known n hn)
    exact Nat.le_trans (ih m hm n hn hname.symm) (depth_le_membersDepth hm)

theorem number_mem_itemTokens {n : Option Number} {vs : List Value} :
    Token.number n ∈ itemTokens vs ↔ ∃ v ∈ vs, Token.number n ∈ v.tokens := by
  induction vs with
  | nil => simp [itemTokens]
  | cons v vs ih =>
    cases vs with
    | nil => simp [itemTokens]
    | cons w vs =>
      have hitems : itemTokens (v :: w :: vs) = v.tokens ++ .comma :: itemTokens (w :: vs) := rfl
      rw [hitems, List.mem_append, List.mem_cons, ih]
      simp

theorem number_mem_memberTokens {n : Option Number} {ms : List Member} :
    Token.number n ∈ memberTokens ms ↔ ∃ m ∈ ms, Token.number n ∈ m.2.tokens := by
  induction ms with
  | nil => simp [memberTokens]
  | cons m ms ih =>
    cases ms with
    | nil => simp [memberTokens]
    | cons m' ms =>
      have hmembers : memberTokens (m :: m' :: ms) =
        .string (some m.1) :: .colon :: m.2.tokens ++ .comma :: memberTokens (m' :: ms) := rfl
      simp only [hmembers, List.cons_append, List.mem_cons, List.mem_append, ih]
      simp

theorem legible_arr {vs : List Value} (h : ∀ v ∈ vs, v.Legible) : Legible (.arr vs) := by
  intro n hn
  rcases List.mem_cons.1 hn with hn | hn
  · cases hn
  · obtain ⟨v, hv, hn⟩ := number_mem_itemTokens.1 hn
    exact h v hv n hn

theorem Legible.of_member {ms : List Member} (h : Legible (.obj ms)) {m : Member} (hm : m ∈ ms) : m.2.Legible := by
  intro n hn
  exact h n (List.mem_cons_of_mem _ (number_mem_memberTokens.2 ⟨m, hm, hn⟩))

theorem ToldBy.legible {v w : Value} (h : v.ToldBy w) (hv : v.Legible) : w.Legible := by
  induction h with
  | leaf => exact hv
  | @object full ms distinct kept known told ih =>
    refine legible_obj fun n hn => ?_
    obtain ⟨m, hm, hname⟩ := List.mem_map.1 (known n hn)
    exact ih m hm n hn hname.symm (hv.of_member hm)

/-! ## The canonical form -/

theorem canonicalItems_eq (vs : List Value) : canonicalItems vs = vs.map canonical := by
  induction vs with
  | nil => rfl
  | cons v vs ih => rw [canonicalItems, ih, List.map_cons]

theorem canonical_eq_arr {v : Value} {vs : List Value} (h : v.canonical = .arr vs) :
    ∃ raws, v = .arr raws ∧ vs = raws.map canonical := by
  cases v with
  | arr raws => exact ⟨raws, rfl, by rw [← canonicalItems_eq]; exact (arr.inj h).symm⟩
  | _ => cases h

theorem insertMember_eq (k : String) (v : Value) (ms : List Member) :
    insertMember k v ms = Dictionary.insertAt k v ms := by
  induction ms with
  | nil => rfl
  | cons m ms ih => rw [insertMember, Dictionary.insertAt, ih]

theorem canonicalMembers_perm {ms done : List Member} (h : ((ms ++ done).map (·.1)).Nodup) :
    (canonicalMembers ms done).Perm (ms.map (fun m => (m.1, m.2.canonical)) ++ done) := by
  induction ms generalizing done with
  | nil => exact .refl _
  | cons m ms ih =>
    rw [List.cons_append, List.map_cons, List.nodup_cons] at h
    have hinsert : (insertMember m.1 m.2.canonical done).Perm ((m.1, m.2.canonical) :: done) := by
      rw [insertMember_eq]
      exact Dictionary.insertAt_perm _ fun hmem => h.1 (by simp only [List.map_append, List.mem_append, hmem, or_true])
    have hnames : ((ms ++ insertMember m.1 m.2.canonical done).map (·.1)).Nodup := by
      refine (((hinsert.append_left ms).trans List.perm_middle).map (·.1)).nodup_iff.2 ?_
      rw [List.map_cons, List.nodup_cons]
      exact h
    rw [canonicalMembers]
    exact (ih hnames).trans ((hinsert.append_left _).trans List.perm_middle)

theorem ToldBy.canonical {v w : Value} (h : v.ToldBy w) : v.ToldBy w.canonical := by
  induction h with
  | @leaf v hv =>
    cases v with
    | arr | obj => cases hv
    | null | bool | num | str => exact .leaf rfl
  | @object full ms distinct kept known told ih =>
    have hperm : (canonicalMembers ms []).Perm (ms.map fun m => (m.1, m.2.canonical)) := by
      have hall := canonicalMembers_perm ((List.append_nil ms).symm ▸ distinct)
      rwa [List.append_nil] at hall
    have hnames : ((canonicalMembers ms []).map (·.1)).Perm (ms.map (·.1)) := by
      have hmap := hperm.map (·.1)
      rwa [List.map_map] at hmap
    refine .object (hnames.nodup_iff.2 distinct) ?_ ?_ ?_
    · intro m hm
      exact (kept m hm).imp id hnames.mem_iff.2
    · intro n hn
      obtain ⟨x, hx, rfl⟩ := List.mem_map.1 (hperm.mem_iff.1 hn)
      exact known x hx
    · intro m hm n hn hname
      obtain ⟨x, hx, rfl⟩ := List.mem_map.1 (hperm.mem_iff.1 hn)
      exact ih m hm x hx hname

end Value

/-! ## Member by member -/

/-- What stands under different names is put in either order. -/
def PutApart (put : σ → String → Value → Except DataFault σ) : Prop :=
  ∀ ⦃s s₁ s₂ : σ⦄ ⦃k k' : String⦄ ⦃v v' : Value⦄, k ≠ k' → put s k v = .ok s₁ → put s₁ k' v' = .ok s₂ →
    ∃ s', put s k' v' = .ok s' ∧ put s' k v = .ok s₂

/-- The members put one after the other. -/
def putAll (put : σ → String → Value → Except DataFault σ) (s : σ) (ms : List Member) : Except DataFault σ :=
  ms.foldlM (fun s m => put s m.1 m.2) s

section

variable {put : σ → String → Value → Except DataFault σ}

theorem putAll_cons {m : Member} {ms : List Member} {s s' : σ} :
    putAll put s (m :: ms) = .ok s' ↔
      ∃ s₁, put s m.1 m.2 = .ok s₁ ∧ putAll put s₁ ms = .ok s' := by
  rw [putAll, List.foldlM_cons]
  cases h : put s m.1 m.2 with
  | error f =>
    constructor
    · intro hall
      cases hall
    · rintro ⟨s₁, hput, -⟩
      cases hput
  | ok s₁ =>
    constructor
    · intro hall
      exact ⟨s₁, rfl, hall⟩
    · rintro ⟨s₂, hput, hall⟩
      cases hput
      exact hall

theorem putAll_perm (hapart : PutApart put) {ms ms' : List Member} (h : ms.Perm ms') (hnames : (ms.map (·.1)).Nodup)
    {s s' : σ} (hall : putAll put s ms = .ok s') :
    putAll put s ms' = .ok s' := by
  induction h generalizing s with
  | nil => exact hall
  | cons m h ih =>
    obtain ⟨s₁, hput, hothers⟩ := putAll_cons.1 hall
    exact putAll_cons.2 ⟨s₁, hput, ih (List.nodup_cons.1 hnames).2 hothers⟩
  | swap m n ms =>
    obtain ⟨s₁, hn, hrest⟩ := putAll_cons.1 hall
    obtain ⟨s₂, hm, hothers⟩ := putAll_cons.1 hrest
    have hne : n.1 ≠ m.1 := by
      intro heq
      rw [List.map_cons, List.nodup_cons, List.map_cons, List.mem_cons, not_or] at hnames
      exact hnames.1.1 heq
    obtain ⟨s₃, hm', hn'⟩ := hapart hne hn hm
    exact putAll_cons.2 ⟨s₃, hm', putAll_cons.2 ⟨s₂, hn', hothers⟩⟩
  | trans h₁ h₂ ih₁ ih₂ => exact ih₂ ((h₁.map (·.1)).nodup_iff.1 hnames) (ih₁ hnames hall)

/-- Members that leave everything as it was. -/
theorem putAll_idle {ms : List Member} {s s' : σ} (h : ∀ m ∈ ms, put s m.1 m.2 = .ok s)
    (hall : putAll put s ms = .ok s') : s' = s := by
  induction ms with
  | nil =>
    cases hall
    rfl
  | cons m ms ih =>
    obtain ⟨s₁, hput, hothers⟩ := putAll_cons.1 hall
    rw [h m (List.mem_cons_self ..)] at hput
    cases hput
    exact ih (fun n hn => h n (List.mem_cons_of_mem _ hn)) hothers

/-- What tells an object is put like the object. -/
theorem putAll_told (hapart : PutApart put) {full ms : List Member} (hfull : (full.map (·.1)).Nodup)
    (hms : (ms.map (·.1)).Nodup) (hkept : ∀ m ∈ full, m.2 = .null ∨ m.1 ∈ ms.map (·.1))
    (hknown : ∀ n ∈ ms, n.1 ∈ full.map (·.1))
    (hsame : ∀ m ∈ full, ∀ n ∈ ms, n.1 = m.1 → ∀ s, put s m.1 n.2 = put s m.1 m.2) {s s' : σ}
    (hnull : ∀ m ∈ full, m.2 = .null → put s m.1 m.2 = .ok s)
    (hall : putAll put s full = .ok s') : putAll put s ms = .ok s' := by
  induction ms generalizing full s with
  | nil =>
    have hidle := putAll_idle (fun m hm => hnull m hm ((hkept m hm).resolve_right nofun)) hall
    rw [hidle]
    rfl
  | cons n ms ih =>
    rw [List.map_cons, List.nodup_cons] at hms
    obtain ⟨m, hm, hname⟩ := List.mem_map.1 (hknown n (List.mem_cons_self ..))
    obtain ⟨before, behind, rfl⟩ := List.append_of_mem hm
    have hfront : (before ++ m :: behind).Perm (m :: (before ++ behind)) := List.perm_middle
    have hnames := (hfront.map (·.1)).nodup_iff.1 hfull
    rw [List.map_cons, List.nodup_cons] at hnames
    have hmoved := putAll_perm hapart hfront hfull hall
    obtain ⟨s₁, hput, hothers⟩ := putAll_cons.1 hmoved
    have hothers_mem : ∀ x ∈ before ++ behind, x ∈ before ++ m :: behind := fun x hx =>
      hfront.mem_iff.2 (List.mem_cons_of_mem _ hx)
    have hothers_name : ∀ x ∈ before ++ behind, x.1 ≠ m.1 := by
      intro x hx heq
      exact hnames.1 (List.mem_map.2 ⟨x, hx, heq⟩)
    refine putAll_cons.2 ⟨s₁, ?_, ih hnames.2 hms.2 ?_ ?_ ?_ ?_ hothers⟩
    · rw [← hname, hsame m hm n (List.mem_cons_self ..) hname.symm]
      exact hput
    · intro x hx
      refine (hkept x (hothers_mem x hx)).imp_right fun hmem => ?_
      rcases List.mem_cons.1 hmem with heq | hmem
      · exact absurd (heq.trans hname.symm) (hothers_name x hx)
      · exact hmem
    · intro x hx
      obtain ⟨y, hy, hyx⟩ := List.mem_map.1 (hknown x (List.mem_cons_of_mem _ hx))
      rcases List.mem_cons.1 (hfront.mem_iff.1 hy) with rfl | hy
      · exact absurd (List.mem_map.2 ⟨x, hx, hyx.symm.trans hname⟩) hms.1
      · exact List.mem_map.2 ⟨y, hy, hyx⟩
    · intro x hx y hy
      exact hsame x (hothers_mem x hx) y (List.mem_cons_of_mem _ hy)
    · -- A `null` that could be put before `m` can be put behind it.
      intro x hx hxnull
      have hbefore := hnull x (hothers_mem x hx) hxnull
      obtain ⟨s₂, hput', hbehind⟩ := hapart (hothers_name x hx) hbefore hput
      rw [hput] at hput'
      cases hput'
      exact hbehind

end

/-- Values without brackets are told by themselves only. -/
theorem same_of_leaves {put : σ → String → Value → Except DataFault σ} {full : List Member}
    (h : ∀ m ∈ full, m.2.depth = 0) : ∀ m ∈ full, ∀ w, m.2.ToldBy w → ∀ s, put s m.1 w = put s m.1 m.2 := by
  intro m hm w hw s
  rw [hw.leaf_eq (h m hm)]

/-- A structure read from its fields is read from what tells them. -/
theorem Record.ofValue_told (r : Record σ α) {put : σ → String → Value → Except DataFault σ} (hapart : PutApart put)
    {full : List Member} (hnames : full.map (·.1) = r.fields.map (·.name)) (hnodup : (r.fields.map (·.name)).Nodup)
    (hsame : ∀ m ∈ full, ∀ w, m.2.ToldBy w → ∀ s, put s m.1 w = put s m.1 m.2)
    (hnull : ∀ m ∈ full, m.2 = .null → put r.start m.1 m.2 = .ok r.start) {w : Value} (h : (Value.obj full).ToldBy w)
    {g : α → β} {b : β} (hread : g <$> r.ofValue put (.obj full) = .ok b) : g <$> r.ofValue put w = .ok b := by
  cases h with
  | leaf => exact hread
  | @object full ms distinct kept known told =>
    rw [r.ofValue_fields put hnames hnodup] at hread
    change g <$> (putAll put r.start full >>= r.finish) = .ok b at hread
    cases hall : putAll put r.start full with
    | error f =>
      rw [hall] at hread
      cases hread
    | ok s =>
      rw [hall] at hread
      have hput := putAll_told hapart (hnames ▸ hnodup) distinct kept known
        (fun m hm n hn hname => hsame m hm n.2 (told m hm n hn hname)) hnull hall
      have hhas : ∀ n ∈ ms, r.has n.1 = true := by
        intro n hn
        obtain ⟨f, hf, hname⟩ := List.mem_map.1 (hnames ▸ known n hn)
        exact List.any_eq_true.2 ⟨f, hf, beq_iff_eq.2 hname⟩
      rw [Record.ofValue, Record.ofMembers_fresh r put r.start hhas distinct fun _ _ => List.not_mem_nil]
      change g <$> (putAll put r.start ms >>= r.finish) = .ok b
      rw [hput]
      exact hread

end DeviceEvents.Json
