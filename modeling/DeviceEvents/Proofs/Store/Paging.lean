import DeviceEvents.Store.Pager
import Mathlib.Data.List.TakeDrop
/-
  DeviceEvents.Proofs.Store.Paging — a pager shows one piece of all that it was handed.

  - `results_extend`: whatever pieces a sequence arrives in, the answer is the page's slice of
    the sequence and its whole length (`extend_append`).
  - `slices_append`: the first pages of one size, put together, are the beginning of the
    sequence.
-/

namespace DeviceEvents

namespace Page

variable {α : Type}

/-- The piece of a sequence that the page shows. -/
def slice (p : Page) (as : List α) : List α :=
  if p.size = 0 then as else (as.drop p.offset).take p.size.toNat

theorem slice_sublist (p : Page) (as : List α) : (p.slice as).Sublist as := by
  unfold slice
  split
  · exact .refl as
  · exact (List.take_sublist _ _).trans (List.drop_sublist _ _)

theorem offset_of_size_zero {p : Page} (h : p.size = 0) : p.offset = 0 := by
  simp [offset, h]

/-- The page after `i` others. -/
def after (i : Nat) (size : UInt32) : Page := ⟨.ofNat (i + 1), size⟩

theorem offset_after {i : Nat} (hi : i + 1 < UInt32.size) (size : UInt32) :
    (after i size).offset = i * size.toNat := by
  have hn : (UInt32.ofNat (i + 1)).toNat = i + 1 := UInt32.toNat_ofNat_of_lt hi
  simp only [offset, after, hn]
  congr 1
  omega

theorem slices_append {size : UInt32} (hs : size ≠ 0) (as : List α) {n : Nat} (hn : n < UInt32.size) :
    ((List.range n).flatMap fun i => (after i size).slice as) = as.take (n * size.toNat) := by
  induction n with
  | zero => simp
  | succ n ih =>
    rw [List.range_succ, List.flatMap_append, ih (by omega), List.flatMap_singleton]
    simp only [slice]
    rw [if_neg (by exact hs), offset_after hn, Nat.succ_mul, List.take_add]
    rfl

end Page

namespace Pager

variable {α : Type}

theorem extend_append (p : Pager α) (as bs : List α) :
    (p.extend as).extend bs = p.extend (as ++ bs) := (List.foldl_append ..).symm

theorem seen_extend (p : Pager α) (as : List α) : (p.extend as).seen = p.seen + as.length := by
  induction as generalizing p with
  | nil => rfl
  | cons a as ih =>
    show ((p.process a).extend as).seen = _
    rw [ih, List.length_cons]
    simp only [process]
    omega

/-- What a pager that still has to come to its page keeps of what follows. -/
def window (p : Pager α) (as : List α) : List α :=
  ((p.limit?.elim as fun l => as.take (l - p.seen))).drop (p.offset - p.seen)

theorem window_cons (p : Pager α) (a : α) (as : List α) :
    p.window (a :: as) = (if p.takes p.seen then [a] else []) ++ (p.process a).window as := by
  obtain ⟨offset, limit?, seen, kept⟩ := p
  by_cases ho : offset ≤ seen
  · have h0 : offset - seen = 0 := by omega
    have h1 : offset - (seen + 1) = 0 := by omega
    cases limit? with
    | none => simp [window, takes, process, ho, h0, h1]
    | some l =>
      by_cases hl : seen < l
      · have ht : l - seen = l - (seen + 1) + 1 := by omega
        simp [window, takes, process, ho, hl, h0, h1, ht]
      · have ht : l - seen = 0 := by omega
        have ht' : l - (seen + 1) = 0 := by omega
        simp [window, takes, process, hl, ht, ht']
  · have ht : offset - seen = offset - (seen + 1) + 1 := by omega
    cases limit? with
    | none => simp [window, takes, process, ho, ht]
    | some l =>
      by_cases hl : seen < l
      · have hl' : l - seen = l - (seen + 1) + 1 := by omega
        simp [window, takes, process, ho, ht, hl']
      · have hl' : l - seen = 0 := by omega
        have hl'' : l - (seen + 1) = 0 := by omega
        simp [window, takes, process, ho, hl', hl'']

theorem kept_extend (p : Pager α) (as : List α) :
    (p.extend as).kept.reverse = p.kept.reverse ++ p.window as := by
  induction as generalizing p with
  | nil => cases hl : p.limit? <;> simp [extend, window, hl]
  | cons a as ih =>
    show ((p.process a).extend as).kept.reverse = _
    rw [ih, window_cons]
    simp only [process]
    split <;> simp

theorem results_extend (p : Page) (as : List α) :
    ((ofPage p).extend as).results = ⟨p.slice as, as.length⟩ := by
  have hw : (ofPage p).window as = p.slice as := by
    by_cases h : p.size = 0
    · simp [window, ofPage, Page.limit?, Page.slice, h, Page.offset_of_size_zero]
    · simp [window, ofPage, Page.limit?, Page.slice, h, List.drop_take]
  unfold results
  rw [kept_extend, seen_extend, hw]
  simp [ofPage]

end Pager
end DeviceEvents
