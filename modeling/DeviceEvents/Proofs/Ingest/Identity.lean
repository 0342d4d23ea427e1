import DeviceEvents.Request
import DeviceEvents.Proofs.Event.PayloadText
import DeviceEvents.Proofs.Instant.LenientText
import DeviceEvents.Proofs.Json.Distinct
/-
  DeviceEvents.Proofs.Ingest.Identity — which requests have the same identity.

  The identity of a request is the bytes that its fingerprint is taken of: the token, a zero, and behind
  a mark the alternate id or, without one, the text of the whole draft. Different drafts have different
  texts (`Draft.render_injective`), for every part of them is read back from what is written; and these
  texts hold no zero, for JSON escapes it.

  Tokens and alternate ids may hold anything, though, the zero and the marks included. Proved: two
  requests have one identity if they are alike, that is, have the same token and the same alternate id or no
  alternate ids and the same draft; or if the token of one goes on into what is told behind the token of the
  other (`RunsInto`); and never else (`identity_exact`). The second takes a zero in a token and in
  an alternate id, and happens: `two_devices_one_identity`.
-/

namespace DeviceEvents

open Json

/-! ## Bytes of a text -/

theorem toList_loop (b : ByteArray) (i : Nat) (done : List UInt8) :
    ByteArray.toList.loop b i done = done.reverse ++ b.data.toList.drop i := by
  induction i, done using ByteArray.toList.loop.induct b with
  | case1 i done hlt ih =>
    have hi : i < b.data.toList.length := hlt
    have hget : b.get! i = b.data.toList[i] := (getElem!_pos b.data i hlt).trans (Array.getElem_toList hlt).symm
    rw [ByteArray.toList.loop, if_pos hlt, ih, List.drop_eq_getElem_cons hi, hget, List.reverse_cons, List.append_assoc]
    rfl
  | case2 i done hge =>
    rw [ByteArray.toList.loop, if_neg hge, List.drop_eq_nil_of_le (Nat.not_lt.1 hge), List.append_nil]

theorem toList_eq_data (b : ByteArray) : b.toList = b.data.toList := by
  rw [ByteArray.toList, toList_loop, List.reverse_nil, List.nil_append, List.drop_zero]

namespace Request

theorem utf8_append (s t : String) : utf8 (s ++ t) = utf8 s ++ utf8 t := by
  simp [utf8, toList_eq_data]

theorem utf8_injective {s t : String} (h : utf8 s = utf8 t) : s = t := by
  rw [utf8, utf8, toList_eq_data, toList_eq_data] at h
  exact String.toByteArray_inj.1 (ByteArray.ext (Array.toList_inj.1 h))

end Request

/-! ## Different drafts, different texts -/

section

variable {α : Type} {f : α → Value}

theorem ofOption_injective (hf : ∀ {a b}, f a = f b → a = b) (hnull : ∀ a, f a ≠ .null) {o p : Option α}
    (h : Value.ofOption f o = Value.ofOption f p) : o = p := by
  cases o with
  | none =>
    cases p with
    | none => rfl
    | some b => exact absurd h.symm (hnull b)
  | some a =>
    cases p with
    | none => exact absurd h (hnull a)
    | some b => rw [hf h]

theorem instantJson_injective {t u : Instant} (h : instantJson t = instantJson u) : t = u := by
  unfold instantJson at h
  exact Instant.text_injective (Value.str.inj h)

theorem metadata_injective {m n : Metadata} (h : dictionaryJson stringJson m = dictionaryJson stringJson n) : m = n := by
  have hread (m : Metadata) := dictionaryOf_json (l := Leaf.string) (f := stringJson) m fun _ _ => rfl
  have hm := hread m
  rw [h, hread n] at hm
  exact (Except.ok.inj hm).symm

end

theorem Payload.toJson_injective {p q : Payload} (hp : ∀ x ∈ p.reals, x.isFinite = true)
    (hq : ∀ x ∈ q.reals, x.isFinite = true) (h : p.toJson = q.toJson) : p = q := by
  obtain ⟨hhead, hfields⟩ := List.cons.inj (Value.obj.inj h)
  have hname : p.kind.name = q.kind.name := Value.str.inj (Prod.ext_iff.1 hhead).2
  have hkind : p.kind = q.kind := by
    have hparse := p.kind.parse?_name
    rw [hname, q.kind.parse?_name] at hparse
    exact (Option.some.inj hparse).symm
  have hread := p.ofContent_fields hp
  rw [hkind, hfields, q.ofContent_fields hq] at hread
  exact (Except.ok.inj hread).symm

namespace Draft

/-- Its doubles are finite. -/
def Finite (d : Draft) : Prop := ∀ x ∈ d.payload.reals, x.isFinite = true

theorem toJson_injective {d e : Draft} (hd : d.Finite) (he : e.Finite) (h : d.toJson = e.toJson) : d = e := by
  obtain ⟨a, t, m, p⟩ := d
  obtain ⟨a', t', m', p'⟩ := e
  simp only [toJson, Value.obj.injEq, List.cons.injEq, Prod.mk.injEq, true_and, and_true] at h
  obtain ⟨ha, ht, hm, hp⟩ := h
  have halternate : a = a' := ofOption_injective Value.str.inj nofun ha
  have hdate : t = t' := ofOption_injective instantJson_injective (fun _ => by unfold instantJson; nofun) ht
  have hpayload : p = p' := Payload.toJson_injective hd he hp
  rw [halternate, hdate, metadata_injective hm, hpayload]

theorem holds_toJson {d : Draft} (hd : d.Finite) : d.toJson.Holds Number.IsFinite := by
  have hreals : ∀ x ∈ d.payload.reals, (realJson x).Holds Number.IsFinite := by
    intro x hx
    rw [realJson, if_pos (hd x hx)]
    exact Value.holds_num (hd x hx)
  refine Value.holds_obj ?_
  simp only [List.forall_mem_cons]
  refine ⟨Value.holds_ofOption _ fun s _ => Value.holds_str s, Value.holds_ofOption _ fun t _ => Value.holds_str t.text,
    Payload.holds_dictionary fun e _ => Value.holds_str e.2, Value.holds_obj ?_, List.forall_mem_nil _⟩
  rw [List.forall_mem_cons]
  exact ⟨Value.holds_str _, d.payload.holds_fields hreals⟩

theorem render_injective {d e : Draft} (hd : d.Finite) (he : e.Finite) (h : d.toJson.render = e.toJson.render) : d = e :=
  toJson_injective hd he (Value.render_injective (holds_toJson hd) (holds_toJson he) h)

end Draft

/-! ## Texts without a zero -/

theorem Json.zero_not_mem_escapeChar (c : Char) : '\x00' ∉ escapeChar c := by
  unfold escapeChar
  split
  · decide
  · decide
  · decide
  · decide
  · decide
  · decide
  · decide
  · split
    · rename_i h
      have hcodes : ∀ n < 0x20, '\x00' ∉ ['\\', 'u'] ++ Text.toHex 4 n := by decide
      exact hcodes c.toNat h
    · rename_i h
      rw [List.mem_singleton]
      rintro rfl
      exact h (by decide)

theorem Json.Token.Plain.zero_not_mem {t : Token} (ht : t.Plain) : '\x00' ∉ t.text := by
  cases t with
  | string s =>
    cases s with
    | none => cases ht
    | some s =>
      show '\x00' ∉ '"' :: s.toList.flatMap escapeChar ++ ['"']
      simp only [List.cons_append, List.mem_cons, List.mem_append, List.mem_flatMap, List.not_mem_nil, or_false, not_or,
        not_exists, not_and]
      exact ⟨by decide, fun c _ => zero_not_mem_escapeChar c, by decide⟩
  | number n =>
    obtain ⟨x, rfl, hx⟩ := ht
    intro h
    exact absurd (List.all_eq_true.1 (number_text_front hx).1 _ h) (by decide)
  | bool b => cases b <;> decide
  | fault => cases ht
  | _ => decide

theorem Draft.zero_not_mem_render {d : Draft} (hd : d.Finite) : '\x00' ∉ d.toJson.render.toList := by
  rw [Value.render, write, String.toList_ofList, List.mem_flatMap]
  rintro ⟨t, ht, h⟩
  exact (Value.plain_tokens _ (Draft.holds_toJson hd) t ht).zero_not_mem h

/-! ## Two texts around a zero -/

/-- Equal texts with a zero in them: it is the same zero, or one of them goes on over the zero of the other. -/
theorem append_zero_eq_iff {as bs xs ys : List Char} : as ++ '\x00' :: xs = bs ++ '\x00' :: ys ↔
    (as = bs ∧ xs = ys) ∨ (∃ zs, bs = as ++ '\x00' :: zs ∧ xs = zs ++ '\x00' :: ys) ∨
      ∃ zs, as = bs ++ '\x00' :: zs ∧ ys = zs ++ '\x00' :: xs := by
  have goesOn {as bs xs ys cs : List Char} (hbs : bs = as ++ cs) (hcs : '\x00' :: xs = cs ++ '\x00' :: ys) :
      (as = bs ∧ xs = ys) ∨ ∃ zs, bs = as ++ '\x00' :: zs ∧ xs = zs ++ '\x00' :: ys := by
    cases cs with
    | nil => exact .inl ⟨by rw [hbs, List.append_nil], (List.cons.inj hcs).2⟩
    | cons c zs =>
      obtain ⟨rfl, hxs⟩ := List.cons.inj hcs
      exact .inr ⟨zs, hbs, hxs⟩
  constructor
  · intro h
    rcases List.append_eq_append_iff.1 h with ⟨cs, hbs, hcs⟩ | ⟨cs, has, hcs⟩
    · exact (goesOn hbs hcs).imp_right .inl
    · rcases goesOn has hcs with ⟨he, hys⟩ | hgoes
      · exact .inl ⟨he.symm, hys.symm⟩
      · exact .inr (.inr hgoes)
  · rintro (⟨rfl, rfl⟩ | ⟨zs, rfl, rfl⟩ | ⟨zs, rfl, rfl⟩)
    · rfl
    · rw [List.append_assoc, List.cons_append]
    · rw [List.append_assoc, List.cons_append]

/-! ## Identities -/

namespace Request

/-- What stands behind the token in the identity. -/
def told (r : Request) : String :=
  match r.draft.alternateId with
  | some a => "alt:" ++ a
  | none => "req:" ++ r.draft.toJson.render

/-- The same token, and the same alternate id or, without one, the same draft. -/
def Alike (r s : Request) : Prop :=
  r.deviceToken = s.deviceToken ∧
    ((∃ a, r.draft.alternateId = some a ∧ s.draft.alternateId = some a) ∨
      r.draft.alternateId = none ∧ s.draft.alternateId = none ∧ r.draft = s.draft)

/-- The token of `s` goes on over the token and the mark of `r` into its alternate id, which then holds a
zero and all that is told of `s`. -/
def RunsInto (r s : Request) : Prop :=
  ∃ x, s.deviceToken = r.deviceToken ++ "\x00alt:" ++ x ∧ r.draft.alternateId = some (x ++ "\x00" ++ s.told)

variable {r s : Request}

theorem told_some {a : String} (h : r.draft.alternateId = some a) : r.told = "alt:" ++ a := by
  simp only [told, h]

theorem told_none (h : r.draft.alternateId = none) : r.told = "req:" ++ r.draft.toJson.render := by
  simp only [told, h]

theorem identity_eq (r : Request) : r.identity = utf8 (r.deviceToken ++ "\x00" ++ r.told) := by
  have hzero : utf8 "\x00" = [0] := by
    rw [utf8, toList_eq_data]
    rfl
  rw [utf8_append, utf8_append, hzero, List.append_assoc, List.singleton_append, identity]
  cases h : r.draft.alternateId with
  | none => rw [told_none h, utf8_append]
  | some a => rw [told_some h, utf8_append]

theorem identity_toList : r.identity = s.identity ↔
    r.deviceToken.toList ++ '\x00' :: r.told.toList = s.deviceToken.toList ++ '\x00' :: s.told.toList := by
  have hchars (r : Request) :
      (r.deviceToken ++ "\x00" ++ r.told).toList = r.deviceToken.toList ++ '\x00' :: r.told.toList := by
    rw [String.toList_append, String.toList_append, List.append_assoc]
    rfl
  rw [identity_eq, identity_eq, ← hchars, ← hchars, String.toList_inj]
  exact ⟨utf8_injective, congrArg utf8⟩

theorem told_alike (hr : r.draft.Finite) (hs : s.draft.Finite) (h : r.told = s.told) :
    (∃ a, r.draft.alternateId = some a ∧ s.draft.alternateId = some a) ∨
      r.draft.alternateId = none ∧ s.draft.alternateId = none ∧ r.draft = s.draft := by
  have hlists := congrArg String.toList h
  cases hra : r.draft.alternateId with
  | some a =>
    cases hsa : s.draft.alternateId with
    | some b =>
      rw [told_some hra, told_some hsa, String.toList_append, String.toList_append] at hlists
      have hab : a = b := String.toList_inj.1 (List.append_cancel_left hlists)
      exact .inl ⟨a, rfl, by rw [hab]⟩
    | none =>
      rw [told_some hra, told_none hsa, String.toList_append, String.toList_append] at hlists
      exact absurd (List.cons.inj hlists).1 (by decide)
  | none =>
    cases hsa : s.draft.alternateId with
    | some b =>
      rw [told_none hra, told_some hsa, String.toList_append, String.toList_append] at hlists
      exact absurd (List.cons.inj hlists).1 (by decide)
    | none =>
      rw [told_none hra, told_none hsa, String.toList_append, String.toList_append] at hlists
      have hrender := String.toList_inj.1 (List.append_cancel_left hlists)
      exact .inr ⟨rfl, rfl, Draft.render_injective hr hs hrender⟩

/-- A token that goes on over the zero of the other has its mark behind that zero, and then part of
its alternate id, for nothing else that is told of a request holds a zero. -/
theorem runsInto_of_told {zs : List Char} (hr : r.draft.Finite)
    (htoken : s.deviceToken.toList = r.deviceToken.toList ++ '\x00' :: zs)
    (htold : r.told.toList = zs ++ '\x00' :: s.told.toList) : r.RunsInto s := by
  cases ha : r.draft.alternateId with
  | none =>
    have hzero : '\x00' ∈ r.told.toList := htold ▸ List.mem_append_right _ List.mem_cons_self
    rw [told_none ha, String.toList_append, List.mem_append] at hzero
    rcases hzero with hzero | hzero
    · exact absurd hzero (by decide)
    · exact absurd hzero (Draft.zero_not_mem_render hr)
  | some a =>
    have hmark : ∃ xs, zs = "alt:".toList ++ xs ∧ a.toList = xs ++ '\x00' :: s.told.toList := by
      rw [told_some ha, String.toList_append] at htold
      rcases List.append_eq_append_iff.1 htold with ⟨xs, hzs, hxs⟩ | ⟨cs, hcs, hrest⟩
      · exact ⟨xs, hzs, hxs⟩
      · cases cs with
        | nil =>
          rw [List.append_nil] at hcs
          exact ⟨[], by rw [← hcs, List.append_nil], hrest.symm⟩
        | cons c cs =>
          obtain ⟨rfl, -⟩ := List.cons.inj hrest
          exact absurd (hcs ▸ List.mem_append_right zs List.mem_cons_self) (by decide)
    obtain ⟨xs, rfl, hxs⟩ := hmark
    refine ⟨.ofList xs, String.toList_inj.1 ?_, ha.trans (congrArg some (String.toList_inj.1 ?_))⟩
    · simp only [String.toList_append, String.toList_ofList, htoken, List.append_assoc]
      rfl
    · simp only [String.toList_append, String.toList_ofList, hxs, List.append_assoc]
      rfl

theorem RunsInto.identity (h : r.RunsInto s) : r.identity = s.identity := by
  obtain ⟨x, htoken, ha⟩ := h
  have hmark : "\x00alt:" = "\x00" ++ "alt:" := rfl
  rw [identity_eq, identity_eq, htoken, told_some ha, hmark]
  simp only [String.append_assoc]

theorem Alike.identity (h : r.Alike s) : r.identity = s.identity := by
  obtain ⟨htoken, htold⟩ := h
  have htold : r.told = s.told := by
    rcases htold with ⟨a, hra, hsa⟩ | ⟨hra, hsa, hdraft⟩
    · rw [told_some hra, told_some hsa]
    · rw [told_none hra, told_none hsa, hdraft]
  rw [identity_eq, identity_eq, htoken, htold]

theorem RunsInto.zeros (h : r.RunsInto s) :
    '\x00' ∈ s.deviceToken.toList ∧ ∃ a, r.draft.alternateId = some a ∧ '\x00' ∈ a.toList := by
  obtain ⟨x, htoken, ha⟩ := h
  refine ⟨?_, _, ha, ?_⟩
  · rw [htoken]
    simp
  · simp

/-- Requests on finite doubles have one identity if they are alike or one token runs into what is told of the
other request, and only then; so where no token or no alternate id holds a zero, only if they
are alike. -/
theorem identity_exact (hr : r.draft.Finite) (hs : s.draft.Finite) :
    (r.identity = s.identity ↔ r.Alike s ∨ r.RunsInto s ∨ s.RunsInto r) ∧
      ((∀ q ∈ [r, s], '\x00' ∉ q.deviceToken.toList) ∨
          (∀ q ∈ [r, s], ∀ a ∈ q.draft.alternateId, '\x00' ∉ a.toList) →
        (r.identity = s.identity ↔ r.Alike s)) := by
  have hexact : r.identity = s.identity ↔ r.Alike s ∨ r.RunsInto s ∨ s.RunsInto r := by
    constructor
    · intro h
      rcases append_zero_eq_iff.1 (identity_toList.1 h) with ⟨htoken, htold⟩ | ⟨zs, htoken, htold⟩ | ⟨zs, htoken, htold⟩
      · exact .inl ⟨String.toList_inj.1 htoken, told_alike hr hs (String.toList_inj.1 htold)⟩
      · exact .inr (.inl (runsInto_of_told hr htoken htold))
      · exact .inr (.inr (runsInto_of_told hs htoken htold))
    · rintro (h | h | h)
      · exact h.identity
      · exact h.identity
      · exact h.identity.symm
  refine ⟨hexact, fun hfree => hexact.trans ⟨fun h => h.resolve_right ?_, .inl⟩⟩
  -- running into another takes a zero in a token and in an alternate id
  have hapart {p q : Request} (hp : p ∈ [r, s]) (hq : q ∈ [r, s]) : ¬p.RunsInto q := by
    intro hpq
    obtain ⟨htoken, a, ha, hzero⟩ := hpq.zeros
    rcases hfree with hfree | hfree
    · exact hfree q hq htoken
    · exact hfree p hp a ha hzero
  rintro (h | h)
  · exact hapart List.mem_cons_self (List.mem_cons_of_mem _ List.mem_cons_self) h
  · exact hapart (List.mem_cons_of_mem _ List.mem_cons_self) List.mem_cons_self h

/-- A switch that has been put on. -/
def sampleSwitched (token alternateId : String) : Request :=
  ⟨token, none, { Draft.ofPayload (.stateChange ⟨"mode", "switch", none, some "on"⟩) with alternateId := some alternateId }⟩

theorem identity_exact_switched :
    (sampleSwitched "truck-17" "m-1").draft.Finite ∧ (sampleSwitched "truck-17" "m-2").draft.Finite ∧
      (sampleSwitched "truck-17" "m-1").identity ≠ (sampleSwitched "truck-17" "m-2").identity := by
  have hfinite : ∀ a, (sampleSwitched "truck-17" a).draft.Finite := fun a x hx => absurd hx List.not_mem_nil
  refine ⟨hfinite _, hfinite _, fun h => ?_⟩
  have hplain := (identity_exact (hfinite "m-1") (hfinite "m-2")).2 (.inl (by decide))
  rcases (hplain.1 h).2 with ⟨a, ha, hb⟩ | ⟨ha, -⟩
  · exact absurd (ha.trans hb.symm) (by decide)
  · cases ha

/-- Two devices, each with an alternate id of its own, and one identity. -/
theorem two_devices_one_identity :
    (sampleSwitched "d" "x\x00alt:y").identity = (sampleSwitched "d\x00alt:x" "y").identity ∧
      (sampleSwitched "d" "x\x00alt:y").deviceToken ≠ (sampleSwitched "d\x00alt:x" "y").deviceToken ∧
      (sampleSwitched "d" "x\x00alt:y").draft.alternateId ≠ (sampleSwitched "d\x00alt:x" "y").draft.alternateId := by
  have hruns : (sampleSwitched "d" "x\x00alt:y").RunsInto (sampleSwitched "d\x00alt:x" "y") := ⟨"x", by decide, by decide⟩
  exact ⟨hruns.identity, by decide, by decide⟩

end Request
end DeviceEvents
