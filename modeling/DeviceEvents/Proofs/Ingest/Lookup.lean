import DeviceEvents.Registry
import Mathlib.Data.List.Induction
/-
  DeviceEvents.Proofs.Ingest.Lookup — which assignment a device token finds.

  A history is all versions that were inserted, in order. Of the assignments whose last version
  is active under a token (`current`) it should find the one inserted last. What the registry
  keeps by token is one id, the holder: who was last inserted as active under the token
  (`takes`). Only a version of the holder under that token ends this (`holder_foldl`). So a
  holder that moves to another token is found under the old one too, and when the holder is
  released, nobody who is still current takes its place.
  - `active?_split`: what a token finds. `active?_eq_iff`: when that is as it should be.
  - `KeepsTokens.found_is_current`: if no id is inserted under two tokens, who is found is
    current. `KeepsTokens.current_is_found`: if besides nobody becomes active while another
    is, who is current is found.
-/

namespace DeviceEvents

namespace Assignment

/-- Inserting it lets the token find it. -/
def takes (token : String) (a : Assignment) : Bool := a.isActive && a.deviceToken == token

/-- It is a version of `id` under the token. -/
def names (token : String) (id : Uuid) (a : Assignment) : Bool := a.id == id && a.deviceToken == token

end Assignment

namespace Registry

open Assignment

variable {r : Registry} {token : String} {a : Assignment} {as pre post : List Assignment}

/-! ## One insert -/

theorem holder_insert_of_takes (h : a.takes token = true) : (r.insert a).activeIds.get? token = some a.id := by
  simp only [takes, Bool.and_eq_true, beq_iff_eq] at h
  obtain ⟨hactive, rfl⟩ := h
  simp [insert, markActive, hactive]

theorem holder_insert_of_not_takes (h : a.takes token = false) :
    (r.insert a).activeIds.get? token = (r.activeIds.get? token).filter fun id => !a.names token id := by
  by_cases ht : a.deviceToken = token
  · subst ht
    have hactive : a.isActive = false := by simpa [takes] using h
    cases hid : r.activeIds.get? a.deviceToken with
    | none => simp [insert, markActive, hactive, hid]
    | some id =>
      by_cases heq : id = a.id
      · simp [insert, markActive, hactive, hid, heq, names, Option.filter_some]
      · simp [insert, markActive, hactive, hid, heq, Ne.symm heq, names, Option.filter_some]
  · -- the holders of other tokens are not looked at
    have hkept : (r.insert a).activeIds.get? token = r.activeIds.get? token := by
      simp only [insert, markActive]
      split
      · simp [Ne.symm ht]
      · split
        · simp [Ne.symm ht]
        · rfl
    rw [hkept]
    cases r.activeIds.get? token with
    | none => rfl
    | some id => simp [names, ht, Option.filter_some]

/-! ## A history -/

theorem holder_foldl (h : ∀ a ∈ as, a.takes token = false) :
    (as.foldl insert r).activeIds.get? token =
      (r.activeIds.get? token).filter fun id => !as.any (·.names token id) := by
  induction as generalizing r with
  | nil => cases hid : r.activeIds.get? token <;> simp [hid, Option.filter_some]
  | cons a as ih =>
    rw [List.foldl_cons, ih fun b hb => h b (List.mem_cons_of_mem _ hb),
      holder_insert_of_not_takes (h a (List.mem_cons_self ..)), Option.filter_filter]
    simp [Bool.and_comm]

theorem ofList_append (as bs : List Assignment) : ofList (as ++ bs) = bs.foldl insert (ofList as) := List.foldl_append ..

theorem get?_concat (as : List Assignment) (a : Assignment) (id : Uuid) :
    (ofList (as ++ [a])).get? id = if id = a.id then some a else (ofList as).get? id := by
  rw [ofList_append]
  exact Table.get?_insert ..

/-- The last version of an id. -/
theorem get?_ofList (h : List Assignment) (id : Uuid) : (ofList h).get? id = h.reverse.find? (·.id == id) := by
  induction h using List.reverseRecOn with
  | nil => rfl
  | append_singleton as a ih =>
    rw [get?_concat, List.reverse_append, List.reverse_singleton, List.singleton_append, List.find?_cons, ← ih]
    by_cases heq : id = a.id
    · simp [heq]
    · simp [heq, beq_false_of_ne (Ne.symm heq)]

theorem exists_version {h : List Assignment} (ha : a ∈ h) : ∃ b, (ofList h).get? a.id = some b ∧ b.id = a.id := by
  have hfound : h.reverse.find? (·.id == a.id) ≠ none := by
    rw [Ne, List.find?_eq_none]
    intro hnone
    exact hnone a (List.mem_reverse.2 ha) (beq_self_eq_true _)
  obtain ⟨b, hb⟩ := Option.ne_none_iff_exists'.1 hfound
  have hid := List.find?_some hb
  exact ⟨b, (get?_ofList h a.id).trans hb, eq_of_beq hid⟩

/-! ## Who is current -/

/-- The versions that are the last of their id and active under the token, in the order in which they
were inserted. -/
def current (token : String) : List Assignment → List Assignment
  | [] => []
  | a :: as => if a.takes token && !as.any (·.id == a.id) then a :: current token as else current token as

/-- What was current is until it is inserted again. -/
theorem current_append (as bs : List Assignment) :
    current token (as ++ bs) = (current token as).filter (fun a => !bs.any (·.id == a.id)) ++ current token bs := by
  induction as with
  | nil => rfl
  | cons a as ih =>
    simp only [List.cons_append, current, List.any_append, ih]
    by_cases ha : (a.takes token && !as.any (·.id == a.id)) = true
    · obtain ⟨ht, hlast⟩ := Bool.and_eq_true_iff.1 ha
      rw [Bool.not_eq_true'] at hlast
      by_cases hb : bs.any (·.id == a.id) = true <;> simp [ht, hlast, hb]
    · rw [if_neg ha, if_neg]
      simp only [Bool.and_eq_true, Bool.not_eq_true', Bool.or_eq_false_iff] at ha ⊢
      exact fun h => ha ⟨h.1, h.2.1⟩

theorem mem_current {h : List Assignment} :
    a ∈ current token h ↔ (ofList h).get? a.id = some a ∧ a.takes token = true := by
  induction h using List.reverseRecOn with
  | nil => simp [current, get?_ofList]
  | append_singleton as b ih =>
    have hb : a ∈ current token [b] ↔ a = b ∧ a.takes token = true := by
      by_cases ht : b.takes token = true
      · simp only [current, ht, List.any_nil, Bool.not_false, Bool.and_self, if_true, List.mem_singleton]
        exact ⟨fun h => ⟨h, h ▸ ht⟩, fun h => h.1⟩
      · simp only [current, ht, Bool.false_and, Bool.false_eq_true, if_false]
        exact ⟨fun h => (nomatch h), fun ⟨h, h'⟩ => absurd (h ▸ h') ht⟩
    rw [current_append, List.mem_append, List.mem_filter, hb, ih, get?_concat]
    by_cases heq : a.id = b.id
    · have hswap : some b = some a ↔ a = b := Option.some_inj.trans eq_comm
      rw [if_pos heq, hswap]
      simp [heq]
    · have hne : a ≠ b := fun h => heq (congrArg Assignment.id h)
      simp [heq, hne, beq_false_of_ne (Ne.symm heq)]

theorem current_eq_nil (h : ∀ a ∈ as, a.takes token = false) : current token as = [] := by
  refine List.eq_nil_iff_forall_not_mem.2 ?_
  intro a ha
  obtain ⟨hlast, ht⟩ := mem_current.1 ha
  rw [get?_ofList] at hlast
  have hmem := List.mem_reverse.1 (List.mem_of_find?_eq_some hlast)
  rw [h a hmem] at ht
  cases ht

/-! ## What is found -/

section Split

variable (ha : a.takes token = true) (hpost : ∀ b ∈ post, b.takes token = false)

include ha hpost

theorem active?_split : (ofList (pre ++ a :: post)).active? token =
    if post.any (·.names token a.id) then none else (ofList (pre ++ a :: post)).get? a.id := by
  have hholder : (ofList (pre ++ a :: post)).activeIds.get? token =
      (some a.id).filter fun id => !post.any (·.names token id) := by
    rw [ofList_append, List.foldl_cons, holder_foldl hpost, holder_insert_of_takes ha]
  rw [active?, hholder, Option.filter_some]
  cases post.any (·.names token a.id) <;> rfl

theorem current_split : current token (pre ++ a :: post) =
    (current token pre).filter (fun b => !(a :: post).any (·.id == b.id)) ++
      if post.any (·.id == a.id) then [] else [a] := by
  rw [current_append, current, current_eq_nil hpost, ha]
  cases post.any (·.id == a.id) <;> rfl

theorem current_of_last (hlast : ∀ b ∈ post, b.id ≠ a.id) : ∃ others, current token (pre ++ a :: post) = others ++ [a] := by
  have hnone : post.any (·.id == a.id) = false := by simpa using hlast
  rw [current_split ha hpost, hnone]
  exact ⟨_, rfl⟩

theorem ne_of_mem_current (hagain : ¬∀ b ∈ post, b.id ≠ a.id) {b : Assignment}
    (hb : b ∈ current token (pre ++ a :: post)) : b.id ≠ a.id := by
  have hsome : post.any (·.id == a.id) = true := by simpa using hagain
  rw [current_split ha hpost, hsome, if_pos rfl, List.append_nil] at hb
  have hnot := (List.mem_filter.1 hb).2
  simp only [List.any_cons, Bool.not_or, Bool.and_eq_true, Bool.not_eq_true', beq_eq_false_iff_ne] at hnot
  exact hnot.1.symm

/-- The holder is what it should be just if it was not inserted again, or was under the token and
nobody else is current. -/
theorem active?_eq_iff : (ofList (pre ++ a :: post)).active? token = (current token (pre ++ a :: post)).getLast? ↔
    (∀ b ∈ post, b.id ≠ a.id) ∨
      (post.any (·.names token a.id) = true ∧ current token (pre ++ a :: post) = []) := by
  rw [active?_split ha hpost]
  by_cases hlast : ∀ b ∈ post, b.id ≠ a.id
  · obtain ⟨others, hcurrent⟩ : ∃ others, current token (pre ++ a :: post) = others ++ [a] :=
      current_of_last ha hpost hlast
    have hmem : a ∈ current token (pre ++ a :: post) := by simp [hcurrent]
    have hnamed : post.any (·.names token a.id) = false := by
      simp only [List.any_eq_false, names, Bool.and_eq_true, beq_iff_eq]
      exact fun b hb h => hlast b hb h.1
    rw [hnamed, (mem_current.1 hmem).1, hcurrent, List.getLast?_concat]
    exact iff_of_true rfl (.inl hlast)
  · cases hnamed : post.any (·.names token a.id) with
    | true =>
      rw [if_pos rfl]
      constructor
      · intro heq
        exact .inr ⟨rfl, List.getLast?_eq_none_iff.1 heq.symm⟩
      · rintro (h | ⟨-, hnil⟩)
        · exact absurd h hlast
        · rw [hnil]
          rfl
    | false =>
      -- the token still finds the id, but as a version that is not current
      refine iff_of_false ?_ (by simp [hlast])
      obtain ⟨b, hb, hid⟩ := exists_version (h := pre ++ a :: post) (a := a) (by simp)
      rw [if_neg Bool.false_ne_true, hb]
      intro heq
      exact ne_of_mem_current ha hpost hlast (List.mem_of_getLast? heq.symm) hid

end Split

theorem exists_last_taker (token : String) (h : List Assignment) : (∀ a ∈ h, a.takes token = false) ∨
    ∃ pre a post, h = pre ++ a :: post ∧ a.takes token = true ∧ ∀ b ∈ post, b.takes token = false := by
  induction h using List.reverseRecOn with
  | nil => exact .inl fun _ h => (nomatch h)
  | append_singleton as b ih =>
    cases hb : b.takes token with
    | true => exact .inr ⟨as, b, [], rfl, hb, fun _ h => (nomatch h)⟩
    | false =>
      rcases ih with hnone | ⟨pre, a, post, rfl, ha, hpost⟩
      · left
        intro a ha
        rcases List.mem_append.1 ha with ha | ha
        · exact hnone a ha
        · rwa [List.mem_singleton.1 ha]
      · refine .inr ⟨pre, a, post ++ [b], by simp, ha, ?_⟩
        intro c hc
        rcases List.mem_append.1 hc with hc | hc
        · exact hpost c hc
        · rwa [List.mem_singleton.1 hc]

theorem nothing_found (h : ∀ a ∈ as, a.takes token = false) : (ofList as).active? token = none := by
  have hholder : (ofList as).activeIds.get? token = none := holder_foldl h
  rw [active?, hholder]
  rfl

/-! ## Orderly histories -/

/-- No id is inserted under two tokens. -/
def KeepsTokens (h : List Assignment) : Prop := ∀ a ∈ h, ∀ b ∈ h, a.id = b.id → a.deviceToken = b.deviceToken

/-- Whoever becomes active under the token does so while no other is. -/
def Exclusive (token : String) (h : List Assignment) : Prop :=
  ∀ n : Fin h.length, h[n].takes token = true → ∀ b ∈ current token (h.take n), b.id = h[n].id

instance (h : List Assignment) : Decidable (KeepsTokens h) := inferInstanceAs (Decidable (∀ a ∈ h, _))

instance (token : String) (h : List Assignment) : Decidable (Exclusive token h) := by
  unfold Exclusive
  infer_instance

theorem KeepsTokens.released (hk : KeepsTokens (pre ++ a :: post)) (ha : a.takes token = true)
    (hagain : ¬∀ b ∈ post, b.id ≠ a.id) : post.any (·.names token a.id) = true := by
  simp only [not_forall, Classical.not_not] at hagain
  obtain ⟨b, hb, hid⟩ := hagain
  have htoken := hk b (by simp [hb]) a (by simp) hid
  simp only [takes, Bool.and_eq_true, beq_iff_eq] at ha
  refine List.any_eq_true.2 ⟨b, hb, ?_⟩
  simp [names, hid, htoken, ha.2]

theorem Exclusive.before (he : Exclusive token (pre ++ a :: post)) (ha : a.takes token = true) :
    ∀ b ∈ current token pre, b.id = a.id := by
  have hn := he ⟨pre.length, by simp⟩
  simp only [Fin.getElem_fin, List.getElem_append_right (Nat.le_refl _), Nat.sub_self, List.getElem_cons_zero,
    List.take_left] at hn
  exact hn ha

theorem KeepsTokens.found_is_current {h : List Assignment} (hk : KeepsTokens h)
    (hf : (ofList h).active? token = some a) : (current token h).getLast? = some a := by
  rcases exists_last_taker token h with hnone | ⟨pre, x, post, rfl, hx, hpost⟩
  · rw [nothing_found hnone] at hf
    cases hf
  · have hlast : ∀ b ∈ post, b.id ≠ x.id := by
      by_contra hagain
      rw [active?_split hx hpost, if_pos (hk.released hx hagain)] at hf
      cases hf
    rw [← hf]
    exact ((active?_eq_iff hx hpost).2 (.inl hlast)).symm

theorem KeepsTokens.current_is_found {h : List Assignment} (hk : KeepsTokens h) (he : Exclusive token h) :
    (ofList h).active? token = (current token h).getLast? := by
  rcases exists_last_taker token h with hnone | ⟨pre, x, post, rfl, hx, hpost⟩
  · rw [nothing_found hnone, current_eq_nil hnone]
    rfl
  · apply (active?_eq_iff hx hpost).2
    by_cases hlast : ∀ b ∈ post, b.id ≠ x.id
    · exact .inl hlast
    · refine .inr ⟨hk.released hx hlast, List.eq_nil_iff_forall_not_mem.2 ?_⟩
      intro b hb
      have hne := ne_of_mem_current hx hpost hlast hb
      rw [current_split hx hpost] at hb
      rcases List.mem_append.1 hb with hb | hb
      · exact hne (he.before hx b (List.mem_filter.1 hb).1)
      · split at hb
        · cases hb
        · exact hne (congrArg Assignment.id (List.mem_singleton.1 hb))

/-! ## All histories -/

def sampleVersion (id : Nat) (token : String) (status : AssignmentStatus) : Assignment :=
  ⟨.ofNat id, .ofNat 5, token, none, none, none, status, none⟩

def sampleOrderly : List Assignment :=
  [sampleVersion 1 "t" .active, sampleVersion 1 "t" .released, sampleVersion 2 "t" .active]

def sampleMoved : List Assignment := [sampleVersion 1 "t" .active, sampleVersion 1 "u" .active]

def sampleHidden : List Assignment :=
  [sampleVersion 2 "t" .active, sampleVersion 3 "t" .active, sampleVersion 3 "t" .released]

/-- A token finds the last version of who was last inserted as active under it, if that was not
released there. It is the current one inserted last in the cases told, so in every orderly history. -/
theorem lookup_exact (token : String) (h : List Assignment) :
    (∀ a, a ∈ current token h ↔ h.reverse.find? (·.id == a.id) = some a ∧ a.takes token = true) ∧
    ((∀ a ∈ h, a.takes token = false) → (ofList h).active? token = none ∧ current token h = []) ∧
    (∀ pre a post, h = pre ++ a :: post → a.takes token = true → (∀ b ∈ post, b.takes token = false) →
      ((ofList h).active? token =
        if post.any (·.names token a.id) then none else h.reverse.find? (·.id == a.id)) ∧
      ((ofList h).active? token = (current token h).getLast? ↔
        (∀ b ∈ post, b.id ≠ a.id) ∨ (post.any (·.names token a.id) = true ∧ current token h = []))) ∧
    (KeepsTokens h → ∀ a, (ofList h).active? token = some a → (current token h).getLast? = some a) ∧
    (KeepsTokens h → Exclusive token h → (ofList h).active? token = (current token h).getLast?) := by
  refine ⟨?_, ?_, ?_, fun hk _ => hk.found_is_current, fun hk he => hk.current_is_found he⟩
  · intro a
    rw [mem_current, get?_ofList]
  · intro hnone
    exact ⟨nothing_found hnone, current_eq_nil hnone⟩
  · rintro pre a post rfl ha hpost
    rw [← get?_ofList]
    exact ⟨active?_split ha hpost, active?_eq_iff ha hpost⟩

theorem lookup_exact_in_order :
    (ofList sampleOrderly).active? "t" = some (sampleVersion 2 "t" .active) ∧
      (current "t" sampleOrderly).getLast? = some (sampleVersion 2 "t" .active) ∧
      (ofList sampleOrderly).active? "u" = none ∧ (ofList (sampleOrderly.take 2)).active? "t" = none := by
  have hfound := ((lookup_exact "t" sampleOrderly).2.2.2.2 (by decide) (by decide)).trans
    (by decide : _ = some (sampleVersion 2 "t" .active))
  have hcurrent := (lookup_exact "t" sampleOrderly).2.2.2.1 (by decide) _ hfound
  have hnone := (lookup_exact "u" sampleOrderly).2.1 (by decide)
  have hreleased := (lookup_exact "t" (sampleOrderly.take 2)).2.2.1 [] (sampleVersion 1 "t" .active)
    [sampleVersion 1 "t" .released] rfl (by decide) (by decide)
  exact ⟨hfound, hcurrent, hnone.1, hreleased.1.trans (if_pos (by decide))⟩

/-- A token still finds who was moved to another token, and does not find who became active before one
that was released since. -/
theorem moved_found_hidden_lost :
    (ofList sampleMoved).active? "t" = some (sampleVersion 1 "u" .active) ∧ current "t" sampleMoved = [] ∧
      (ofList sampleHidden).active? "t" = none ∧ current "t" sampleHidden = [sampleVersion 2 "t" .active] := by
  decide

end Registry
end DeviceEvents
