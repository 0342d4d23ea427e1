import DeviceEvents.Proofs.Store.Enumeration
import DeviceEvents.Proofs.Store.Paging
import Mathlib.Algebra.Order.Floor.Div
/-
  DeviceEvents.Proofs.Store.Piecemeal — a pager that is fed one item or many at a time.

  Only the sequence of all items counts: after any calls a pager is as after a single one with all of
  them (`run_eq_extend`). What it keeps are the items at the positions of its page (`window_eq_filter`,
  `slice_eq_itemsAt`), and it knows how many there were.

  A machine counts in words of 64 bits. Where a page begins and where it ends always fits into one,
  being at most the product of two words of 32 bits (`ofPageInWords?_eq`). The count of the items fits
  until there are more of them than a word can tell, in whatever pieces they come and whatever page is
  asked for (`runInWords?_eq`).

  The first pages of one size, put together, are the whole sequence just if they are as many as it takes
  to hold it (`pages_whole_iff`), and just the pages behind these are empty (`slice_eq_nil_iff`).
-/

namespace DeviceEvents

namespace Page

variable {α : Type} {p : Page}

/-! ## How many pages there are -/

theorem size_pos {size : UInt32} (h : size ≠ 0) : 0 < size.toNat :=
  UInt32.lt_iff_toNat_lt.1 (UInt32.pos_iff_ne_zero.2 h)

theorem pages_whole_iff {size : UInt32} (h : size ≠ 0) (as : List α) {n : Nat} (hn : n < UInt32.size) :
    ((List.range n).flatMap fun i => (after i size).slice as) = as ↔ as.length ⌈/⌉ size.toNat ≤ n := by
  rw [slices_append h as hn, List.take_eq_self_iff, ceilDiv_le_iff_le_mul (size_pos h), Nat.mul_comm]

theorem slice_eq_nil_iff (h : p.size ≠ 0) (as : List α) :
    p.slice as = [] ↔ as.length ⌈/⌉ p.size.toNat < max p.number.toNat 1 := by
  have hs := size_pos h
  have hempty : p.slice as = [] ↔ as.length ≤ p.size.toNat * (max p.number.toNat 1 - 1) := by
    rw [slice, if_neg h, List.take_eq_nil_iff, List.drop_eq_nil_iff, offset, Nat.mul_comm]
    omega
  rw [hempty, ← ceilDiv_le_iff_le_mul hs]
  omega

/-! ## In words -/

/-- Page 0 is made the first page before one is taken off. -/
def offsetInWords? (p : Page) : Option Nat :=
  BucketScheme.unsigned? ((max p.number 1 - 1).toNat * p.size.toNat)

def limitInWords? (p : Page) : Option (Option Nat) :=
  if p.size = 0 then some none
  else do
    let offset ← p.offsetInWords?
    return some (← BucketScheme.unsigned? (offset + p.size.toNat))

theorem offset_add_size (p : Page) : p.offset + p.size.toNat = max p.number.toNat 1 * p.size.toNat := by
  have hfirst : max p.number.toNat 1 = max p.number.toNat 1 - 1 + 1 := by omega
  rw [hfirst, Nat.succ_mul]
  rfl

theorem offset_add_size_lt (p : Page) : p.offset + p.size.toNat < 0x10000000000000000 := by
  have hnumber := p.number.toNat_lt
  have hsize := p.size.toNat_lt
  calc p.offset + p.size.toNat
    _ = max p.number.toNat 1 * p.size.toNat := p.offset_add_size
    _ ≤ 0xffffffff * 0xffffffff := Nat.mul_le_mul (by omega) (by omega)
    _ < 0x10000000000000000 := by decide

theorem offsetInWords?_eq (p : Page) : p.offsetInWords? = some p.offset := by
  have hfirst : (1 : UInt32) ≤ max p.number 1 := by
    rw [UInt32.le_iff_toNat_le, UInt32.toNat_max]
    exact Nat.le_max_right _ _
  have hbefore : (max p.number 1 - 1).toNat = max p.number.toNat 1 - 1 := by
    rw [UInt32.toNat_sub_of_le _ _ hfirst, UInt32.toNat_max]
    rfl
  have hlt := p.offset_add_size_lt
  rw [offsetInWords?, hbefore]
  exact BucketScheme.unsigned?_eq (show p.offset < _ by omega)

theorem limitInWords?_eq (p : Page) : p.limitInWords? = some p.limit? := by
  unfold limitInWords? limit?
  split
  · rfl
  · rw [offsetInWords?_eq]
    simp only [Option.bind_eq_bind, Option.bind_some, BucketScheme.unsigned?_eq p.offset_add_size_lt, Option.pure_def]

end Page

namespace Pager

variable {α : Type}

/-! ## Positions -/

/-- The items from one position up to another, in order. -/
def itemsAt (start stop : Nat) (as : List α) : List α :=
  (as.zipIdx.filter fun x => decide (start ≤ x.2 ∧ x.2 < stop)).map Prod.fst

/-- The positions go on from what the pager has seen. -/
theorem window_eq_filter (p : Pager α) (as : List α) :
    p.window as = ((as.zipIdx p.seen).filter fun x => p.takes x.2).map Prod.fst := by
  induction as generalizing p with
  | nil => cases hl : p.limit? <;> simp [window, hl]
  | cons a as ih =>
    rw [window_cons, ih, List.zipIdx_cons, List.filter_cons]
    show _ ++ ((as.zipIdx (p.seen + 1)).filter fun x => p.takes x.2).map Prod.fst = _
    split
    · rfl
    · rfl

theorem itemsAt_eq (start stop : Nat) (as : List α) :
    itemsAt start stop as = (as.drop start).take (stop - start) := by
  -- These are the positions that a fresh pager with these ends takes.
  have hw := window_eq_filter (⟨start, some stop, 0, []⟩ : Pager α) as
  simp only [window, takes, Option.elim_some, Nat.sub_zero, List.drop_take] at hw
  rw [hw, itemsAt]
  simp [Bool.decide_and]

theorem itemsAt_offset (p : Page) (as : List α) :
    itemsAt p.offset (max p.number.toNat 1 * p.size.toNat) as = (as.drop p.offset).take p.size.toNat := by
  rw [itemsAt_eq, ← p.offset_add_size, Nat.add_sub_cancel_left]

theorem slice_eq_itemsAt (p : Page) (as : List α) :
    p.slice as = if p.size = 0 then as else itemsAt p.offset (max p.number.toNat 1 * p.size.toNat) as := by
  rw [itemsAt_offset]
  rfl

/-! ## Calls -/

inductive Call (α : Type) where
  | process (a : α)
  | extend (as : List α)

def Call.items : Call α → List α
  | .process a => [a]
  | .extend as => as

def itemsOf (calls : List (Call α)) : List α := calls.flatMap Call.items

def step (p : Pager α) : Call α → Pager α
  | .process a => p.process a
  | .extend as => p.extend as

def run (p : Pager α) (calls : List (Call α)) : Pager α := calls.foldl step p

/-- The answer for a page, after all calls. -/
def paged (p : Page) (calls : List (Call α)) : Results α := ((ofPage p).run calls).results

theorem step_eq_extend (p : Pager α) (c : Call α) : p.step c = p.extend c.items := by
  cases c with
  | process a => rfl
  | extend as => rfl

theorem run_eq_extend (p : Pager α) (calls : List (Call α)) : p.run calls = p.extend (itemsOf calls) := by
  induction calls generalizing p with
  | nil => rfl
  | cons c calls ih =>
    show (p.step c).run calls = _
    rw [ih, step_eq_extend, extend_append]
    rfl

theorem paged_eq (p : Page) (calls : List (Call α)) :
    paged p calls = ⟨p.slice (itemsOf calls), (itemsOf calls).length⟩ := by
  rw [paged, run_eq_extend, results_extend]

/-! ## In words -/

def ofPageInWords? (p : Page) : Option (Pager α) := do
  return ⟨← p.offsetInWords?, ← p.limitInWords?, 0, []⟩

/-- The count goes up first, for an item that is not kept as well. -/
def processInWords? (p : Pager α) (a : α) : Option (Pager α) := do
  let seen ← BucketScheme.unsigned? (p.seen + 1)
  return { p with seen := seen, kept := if p.takes p.seen then a :: p.kept else p.kept }

def extendInWords? (p : Pager α) (as : List α) : Option (Pager α) := as.foldlM processInWords? p

def stepInWords? (p : Pager α) : Call α → Option (Pager α)
  | .process a => p.processInWords? a
  | .extend as => p.extendInWords? as

def runInWords? (p : Pager α) (calls : List (Call α)) : Option (Pager α) := calls.foldlM stepInWords? p

def pagedInWords? (p : Page) (calls : List (Call α)) : Option (Results α) := do
  let pager ← ofPageInWords? p
  return (← pager.runInWords? calls).results

theorem ofPageInWords?_eq (p : Page) : (ofPageInWords? p : Option (Pager α)) = some (ofPage p) := by
  unfold ofPageInWords?
  rw [Page.offsetInWords?_eq, Page.limitInWords?_eq]
  rfl

/-- A count that is full stays full, so the last count decides for all. -/
theorem extendInWords?_eq {p : Pager α} (h : p.seen < 0x10000000000000000) (as : List α) :
    p.extendInWords? as = if p.seen + as.length < 0x10000000000000000 then some (p.extend as) else none := by
  induction as generalizing p with
  | nil => exact (if_pos h).symm
  | cons a as ih =>
    have hseen : (p.process a).seen = p.seen + 1 := rfl
    rw [extendInWords?, List.foldlM_cons, processInWords?, List.length_cons]
    by_cases hnext : p.seen + 1 < 0x10000000000000000
    · rw [BucketScheme.unsigned?_eq hnext]
      show (p.process a).extendInWords? as = _
      rw [ih hnext, hseen, Nat.add_assoc, Nat.add_comm 1]
      rfl
    · have hfull : ¬p.seen + (as.length + 1) < 0x10000000000000000 := by omega
      rw [BucketScheme.unsigned?, if_neg hnext, if_neg hfull]
      rfl

theorem stepInWords?_eq (p : Pager α) (c : Call α) : p.stepInWords? c = p.extendInWords? c.items := by
  cases c with
  | process a => exact (bind_pure _).symm
  | extend as => rfl

theorem runInWords?_eq_extend (p : Pager α) (calls : List (Call α)) :
    p.runInWords? calls = p.extendInWords? (itemsOf calls) := by
  induction calls generalizing p with
  | nil => rfl
  | cons c calls ih =>
    -- Both sides begin with the items of the first call, and go on from what comes of them.
    rw [runInWords?, List.foldlM_cons, stepInWords?_eq, itemsOf, List.flatMap_cons, extendInWords?, extendInWords?,
      List.foldlM_append]
    exact bind_congr fun q => ih q

theorem runInWords?_eq (p : Page) (calls : List (Call α)) :
    (ofPage p).runInWords? calls =
      if (itemsOf calls).length < 0x10000000000000000 then some ((ofPage p).run calls) else none := by
  have hseen : (ofPage p : Pager α).seen = 0 := rfl
  rw [runInWords?_eq_extend, extendInWords?_eq (by rw [hseen]; decide), run_eq_extend]
  simp only [hseen, Nat.zero_add]

theorem pagedInWords?_eq (p : Page) (calls : List (Call α)) :
    pagedInWords? p calls =
      if (itemsOf calls).length < 0x10000000000000000 then some (paged p calls) else none := by
  rw [pagedInWords?, ofPageInWords?_eq]
  show ((ofPage p).runInWords? calls).bind (fun q => some q.results) = _
  rw [runInWords?_eq]
  split
  · rfl
  · rfl

/-! ## The answer -/

/-- For every page and any calls, the answer holds the items at the positions of the page, or all of them if its size
is 0, and how many there were: what stands before the page is dropped, and a page is taken of the rest. The
calls do what one call with all items does. In words every page can be set up, and the calls succeed just if a
word can tell how many items there were. If the size is not 0, the pages 1 to `k`, as far as pages are numbered, make
up the whole just if `k` pages can hold it, and a page is empty just if it is behind those that it takes. -/
theorem paged_exact (p : Page) (calls : List (Call α)) :
    let all := itemsOf calls
    let s := p.size.toNat
    let n := max p.number.toNat 1
    paged p calls = ⟨if p.size = 0 then all else itemsAt ((n - 1) * s) (n * s) all, all.length⟩ ∧
    itemsAt ((n - 1) * s) (n * s) all = (all.drop ((n - 1) * s)).take s ∧
    (ofPage p).run calls = (ofPage p).extend all ∧
    ((ofPageInWords? p : Option (Pager α)) = some (ofPage p) ∧
      pagedInWords? p calls = if all.length < 0x10000000000000000 then some (paged p calls) else none) ∧
    (p.size ≠ 0 →
      (∀ k < UInt32.size, ((List.range k).flatMap fun i => (paged (Page.after i p.size) calls).results) = all ↔
        all.length ⌈/⌉ s ≤ k) ∧
      ((paged p calls).results = [] ↔ all.length ⌈/⌉ s < n)) := by
  intro all s n
  refine ⟨?_, itemsAt_offset p all, run_eq_extend _ calls, ⟨ofPageInWords?_eq p, pagedInWords?_eq p calls⟩, ?_⟩
  · rw [paged_eq, slice_eq_itemsAt]
    rfl
  · intro hs
    constructor
    · intro k hk
      simp only [paged_eq]
      exact Page.pages_whole_iff hs all hk
    · rw [paged_eq]
      exact Page.slice_eq_nil_iff hs all

def sevenInThree : List (Call Nat) := [.extend [0, 1, 2, 3], .process 4, .extend [5, 6]]

/-- Seven items in pages of three: the second page, the first three put together, and the fourth. -/
theorem paged_exact_seven :
    paged ⟨2, 3⟩ sevenInThree = ⟨[3, 4, 5], 7⟩ ∧
    ((⟨2, 3⟩ : Page).size ≠ 0 ∧ 3 < UInt32.size ∧
      ((List.range 3).flatMap fun i => (paged (Page.after i 3) sevenInThree).results) = [0, 1, 2, 3, 4, 5, 6]) ∧
    ((⟨4, 3⟩ : Page).size ≠ 0 ∧ 7 ⌈/⌉ 3 < 4 ∧ (paged ⟨4, 3⟩ sevenInThree).results = []) := by
  have hpages : 7 ⌈/⌉ 3 = 3 := by decide
  have hbehind : 7 ⌈/⌉ 3 < 4 := by decide
  have hsecond := paged_exact ⟨2, 3⟩ sevenInThree
  have hfourth := paged_exact ⟨4, 3⟩ sevenInThree
  refine ⟨hsecond.1, ⟨by decide, by decide, ?_⟩, ⟨by decide, hbehind, ?_⟩⟩
  · exact ((hsecond.2.2.2.2 (by decide)).1 3 (by decide)).2 (Nat.le_of_eq hpages)
  · exact (hfourth.2.2.2.2 (by decide)).2.2 hbehind

end Pager
end DeviceEvents
