import DeviceEvents.Store.Partition
import DeviceEvents.Store.WideRow
import Mathlib.Data.List.Sigma
/-
  DeviceEvents.Proofs.Store.Newest — the order in which answers list events.

  Newest first is the converse of the order of a row: by date, then by id. Two events that may
  stand in either order have one place (`SamePlace`), and sorting leaves those as they were:
  - `pairwise_mergeSort_stable`: a sorted list keeps whatever held, from front to back, between
    items that the order does not tell apart.
-/

namespace DeviceEvents

namespace Event

theorem not_precedes_self (a : Event) : ¬a.Precedes a := by
  intro h
  rcases h with h | ⟨-, h⟩
  · exact Instant.lt_irrefl _ h
  · exact Uuid.lt_irrefl _ h

theorem Precedes.asymm {a b : Event} (h : a.Precedes b) : ¬b.Precedes a := fun h' =>
  not_precedes_self a (h.trans h')

theorem Precedes.eventDate_le {a b : Event} (h : a.Precedes b) : a.eventDate ≤ b.eventDate := by
  rcases precedes_iff.1 h with h | ⟨h, -⟩
  · exact Instant.not_lt.1 fun h' => Instant.lt_irrefl _ (Instant.lt_trans h h')
  · exact Instant.not_lt.1 (h ▸ Instant.lt_irrefl _)

theorem Precedes.not_samePlace {a b : Event} (h : a.Precedes b) : ¬a.SamePlace b := fun hs =>
  not_precedes_self b (hs.precedes_iff.1 h)

theorem SamePlace.symm {a b : Event} (h : a.SamePlace b) : b.SamePlace a := ⟨h.1.symm, h.2.symm⟩

theorem samePlace_of_not_precedes {a b : Event} (h : ¬a.Precedes b) (h' : ¬b.Precedes a) :
    a.SamePlace b := by
  rcases precedes_trichotomy a b with hp | hs | hp
  · exact absurd hp h
  · exact hs
  · exact absurd hp h'

end Event

theorem newerFirst_iff {a b : Event} : newerFirst a b = true ↔ ¬a.Precedes b := by
  have hid : b.id ≤ a.id ↔ ¬a.id < b.id := Nat.not_lt.symm
  simp only [newerFirst, Bool.or_eq_true, Bool.and_eq_true, decide_eq_true_eq, beq_iff_eq, hid, Event.precedes_iff]
  rcases Instant.lt_trichotomy a.eventDate b.eventDate with h | h | h
  · have hne : a.eventDate ≠ b.eventDate := fun he => Instant.lt_irrefl _ (he ▸ h)
    have hn : ¬b.eventDate < a.eventDate := fun h' => Instant.lt_irrefl _ (Instant.lt_trans h h')
    simp [h, hne, hn]
  · simp [h, Instant.lt_irrefl]
  · have hne : a.eventDate ≠ b.eventDate := fun he => Instant.lt_irrefl _ (he ▸ h)
    have hn : ¬a.eventDate < b.eventDate := fun h' => Instant.lt_irrefl _ (Instant.lt_trans h h')
    simp [h, hne, hn]

theorem newerFirst_trans (a b c : Event) (h : newerFirst a b = true) (h' : newerFirst b c = true) :
    newerFirst a c = true := by
  rw [newerFirst_iff] at h h' ⊢
  intro hac
  rcases Event.precedes_trichotomy b c with hb | hs | hb
  · exact h' hb
  · exact h (hs.iff_precedes.2 hac)
  · exact h (hac.trans hb)

theorem newerFirst_total (a b : Event) : (newerFirst a b || newerFirst b a) = true := by
  simp only [Bool.or_eq_true, newerFirst_iff]
  by_cases h : a.Precedes b
  · exact .inr h.asymm
  · exact .inl h

/-! ## Sorting -/

section Sorting

variable {α : Type}

theorem pairwise_mergeSort_stable (le : α → α → Bool) (trans : ∀ a b c, le a b = true → le b c = true → le a c = true)
    (total : ∀ a b, (le a b || le b a) = true) {before : α → α → Prop} {l : List α}
    (h : l.Pairwise fun a b => le b a = true → before a b) :
    (l.mergeSort le).Pairwise fun a b => le a b = true ∧ (le b a = true → before a b) := by
  have hs := List.pairwise_mergeSort (List.zipIdxLE_trans trans) (List.zipIdxLE_total total) l.zipIdx
  have hn : ((l.zipIdx.mergeSort (List.zipIdxLE le)).map (·.2)).Nodup :=
    ((List.mergeSort_perm _ _).map _).nodup_iff.2 (List.nodup_zipIdx_map_snd l)
  rw [← List.mergeSort_zipIdx, List.pairwise_map]
  refine (hs.and (List.pairwise_map.1 hn)).imp_of_mem fun {a b} ha hb ⟨hab, hne⟩ => ?_
  have ha' := List.mk_mem_zipIdx_iff_getElem?.1 ((List.mergeSort_perm _ _).mem_iff.1 ha)
  have hb' := List.mk_mem_zipIdx_iff_getElem?.1 ((List.mergeSort_perm _ _).mem_iff.1 hb)
  simp only [List.zipIdxLE] at hab
  split at hab
  · rename_i hle
    refine ⟨hle, ?_⟩
    intro hba
    -- of two items in either order the one that came first has the smaller number
    have hlt : a.2 < b.2 := by
      simp only [hba, if_true, decide_eq_true_eq] at hab
      omega
    obtain ⟨hi, hai⟩ := List.getElem?_eq_some_iff.1 ha'
    obtain ⟨hj, hbj⟩ := List.getElem?_eq_some_iff.1 hb'
    have hp := List.pairwise_iff_getElem.1 h a.2 b.2 hi hj hlt
    rw [hai, hbj] at hp
    exact hp hba
  · cases hab

end Sorting
end DeviceEvents
