import DeviceEvents.Proofs.Store.Completeness
/-
  DeviceEvents.Proofs.Store.OpenRange — what an open end of a range lets in.

  Which buckets a query visits is planned with the present for an open end and with one width
  before the end for an open start. The scans of those buckets are given the range as it is,
  open. So next to the entries between the ends that the plan has in mind, a query also finds
  what else the outermost buckets hold.
  - `found_withRange`: over a range within its own that takes the same buckets (`Narrows`), a query
    finds what it found, less what lies outside, in the same order.
  - `open_range_exact`: a query with an open end is answered as the query that ends at the
    present just if nothing later is found, and counts the later entries on top; likewise with
    an open start and what is earlier than one width before the end.
  - `open_range_lets_in`: a put event in the bucket of an open end, on the far side of it.
-/

namespace DeviceEvents.Query

/-! ## Two ranges that take the same buckets -/

/-- The same query over another range. -/
def withRange (q : Query) (range : DateRange) : Query := { q with range }

/-- A range within `wide` that takes the same buckets. -/
structure Narrows (s : BucketScheme) (now : Instant) (range wide : DateRange) : Prop where
  span : s.span range now = s.span wide now
  within : ∀ t, range.contains t = true → wide.contains t = true

namespace Narrows

variable {s : BucketScheme} {now : Instant} {range wide : DateRange}

theorem covering (h : Narrows s now range wide) : s.covering range now = s.covering wide now := by
  unfold BucketScheme.covering
  rw [h.span]

theorem count (h : Narrows s now range wide) : s.count range now = s.count wide now := by
  unfold BucketScheme.count
  rw [h.span]

end Narrows

variable {q : Query} {p : Plan} {r : Rows} {now : Instant} {range : DateRange}

theorem asksFor_withRange (h : Narrows p.scheme now range q.range) (w : IndexWrite) :
    (q.withRange range).asksFor p now w = (q.asksFor p now w && range.contains w.event.eventDate) := by
  have hw := h.within w.event.eventDate
  simp only [asksFor, withRange, h.covering]
  cases hc : range.contains w.event.eventDate with
  | false => simp
  | true => simp [hw hc]

theorem found_withRange (h : Narrows p.scheme now range q.range) :
    (q.withRange range).found p r now = (q.found p r now).filter fun w => range.contains w.event.eventDate := by
  have hfilter : r.entries.filter ((q.withRange range).asksFor p now) =
      (r.entries.filter (q.asksFor p now)).filter fun w => range.contains w.event.eventDate := by
    rw [List.filter_filter]
    refine List.filter_congr ?_
    intro w _
    rw [asksFor_withRange h, Bool.and_comm]
  have hperm : ((q.withRange range).found p r now).Perm
      ((q.found p r now).filter fun w => range.contains w.event.eventDate) := by
    refine ((q.withRange range).found_perm p r now).trans ?_
    rw [hfilter]
    exact ((q.found_perm p r now).filter _).symm
  refine List.Perm.eq_of_pairwise ?_ ((q.withRange range).pairwise_found p r now)
    ((q.pairwise_found p r now).filter _) hperm
  intro v w hv hw hvw hwv
  have hasked := (q.withRange range).found_perm p r now
  exact hvw.antisymm (hasked.mem_iff.1 hv) (hasked.mem_iff.1 (hperm.mem_iff.2 hw)) hwv

theorem trouble?_withRange (h : Narrows p.scheme now range q.range) :
    (q.withRange range).trouble? p r now = q.trouble? p r now := by
  have hcount : p.scheme.count (q.withRange range).range now = p.scheme.count q.range now := h.count
  unfold trouble?
  rw [hcount]
  rfl

/-! ## What is found besides -/

/-- The query is answered as over `range`, but that it also finds the entries that are `besides`
it. Where there are none, the answers are the same. -/
structure FindsBesides (q : Query) (p : Plan) (r : Rows) (now : Instant) (range : DateRange)
    (besides : IndexWrite → Bool) : Prop where
  found : (q.withRange range).found p r now = (q.found p r now).filter fun w => !besides w
  error : ∀ x, q.answer p r now = .error x ↔ (q.withRange range).answer p r now = .error x
  ok : ∀ res, q.answer p r now = .ok res → ∃ narrow, (q.withRange range).answer p r now = .ok narrow ∧
    res.total = narrow.total + r.entries.countP (fun w => q.asksFor p now w && besides w) ∧
    (res = narrow ↔ ∀ w ∈ r.entries, q.asksFor p now w = true → besides w = false)

theorem countP_entries (pred : IndexWrite → Bool) :
    r.entries.countP (fun w => q.asksFor p now w && pred w) = (q.found p r now).countP pred := by
  rw [(q.found_perm p r now).countP_eq, List.countP_filter]
  refine List.countP_congr ?_
  intro w _
  rw [Bool.and_comm]

section Besides

variable {besides : IndexWrite → Bool}

theorem found_without (h : Narrows p.scheme now range q.range)
    (hb : ∀ w, q.range.contains w.event.eventDate = true → range.contains w.event.eventDate = !besides w) :
    (q.withRange range).found p r now = (q.found p r now).filter fun w => !besides w := by
  rw [found_withRange h]
  refine List.filter_congr ?_
  intro w hw
  have hask := (mem_found.1 hw).2
  simp only [asksFor, Bool.and_eq_true] at hask
  exact hb w hask.2

theorem total_eq_add (hf : (q.withRange range).found p r now = (q.found p r now).filter fun w => !besides w) :
    (q.reference p r now).total = ((q.withRange range).reference p r now).total +
      r.entries.countP (fun w => q.asksFor p now w && besides w) := by
  have hsplit := List.length_eq_countP_add_countP besides (l := q.found p r now)
  have hnot : (q.found p r now).countP (fun w => decide ¬besides w = true) =
      (q.found p r now).countP (fun w => !besides w) := List.countP_congr fun w _ => by simp
  show (q.found p r now).length = ((q.withRange range).found p r now).length + _
  rw [hf, countP_entries, ← List.countP_eq_length_filter]
  omega

theorem reference_eq_iff (hf : (q.withRange range).found p r now = (q.found p r now).filter fun w => !besides w) :
    q.reference p r now = (q.withRange range).reference p r now ↔
      ∀ w ∈ r.entries, q.asksFor p now w = true → besides w = false := by
  constructor
  · intro heq w hw hask
    have htotal := total_eq_add hf
    rw [heq] at htotal
    have hzero : r.entries.countP (fun w => q.asksFor p now w && besides w) = 0 := by omega
    have hnot := List.countP_eq_zero.1 hzero w hw
    simpa [hask] using hnot
  · intro hnone
    have hall : (q.found p r now).filter (fun w => !besides w) = q.found p r now := by
      refine List.filter_eq_self.2 ?_
      intro w hw
      obtain ⟨hmem, hask⟩ := mem_found.1 hw
      rw [hnone w hmem hask]
      rfl
    unfold reference
    rw [hf, hall]
    rfl

theorem findsBesides (h : Narrows p.scheme now range q.range)
    (hb : ∀ w, q.range.contains w.event.eventDate = true → range.contains w.event.eventDate = !besides w) :
    q.FindsBesides p r now range besides := by
  have hf := found_without (r := r) h hb
  refine ⟨hf, ?_, ?_⟩
  · intro x
    rw [answer_eq, answer_eq, trouble?_withRange h]
    cases q.trouble? p r now with
    | some y => exact Iff.rfl
    | none => simp
  · intro res hres
    rw [answer_eq] at hres
    rw [answer_eq, trouble?_withRange h]
    cases ht : q.trouble? p r now with
    | some y =>
      rw [ht] at hres
      cases hres
    | none =>
      rw [ht] at hres
      cases hres
      exact ⟨(q.withRange range).reference p r now, rfl, total_eq_add hf, reference_eq_iff hf⟩

theorem FindsBesides.of_none {res : Results Event} (h : q.FindsBesides p r now range besides)
    (hres : q.answer p r now = .ok res) (hnone : ∀ w ∈ r.entries, q.asksFor p now w = true → besides w = false) :
    (q.withRange range).answer p r now = .ok res := by
  obtain ⟨narrow, hnarrow, -, heq⟩ := h.ok res hres
  rw [heq.2 hnone]
  exact hnarrow

end Besides

/-! ## The two ends -/

theorem narrows_stop {s : BucketScheme} (h : range.stop = none) :
    Narrows s now { range with stop := some now } range := by
  refine ⟨?_, ?_⟩
  · simp only [BucketScheme.span, h, Option.getD_none, Option.getD_some]
  · intro t ht
    simp only [DateRange.contains, Bool.and_eq_true] at ht
    simp [DateRange.contains, h, ht.1]

theorem narrows_start {s : BucketScheme} {t : Instant} (h : range.start = none)
    (ht : (range.stop.getD now).minusMillis? s.width = some t) :
    Narrows s now { range with start := some t } range := by
  refine ⟨?_, ?_⟩
  · simp only [BucketScheme.span, h, ht, Option.getD_none, Option.getD_some]
  · intro u hu
    simp only [DateRange.contains, Bool.and_eq_true] at hu
    simp [DateRange.contains, h, hu.2]

theorem decide_le_eq (s t : Instant) : decide (s ≤ t) = !decide (t < s) := by
  rw [← decide_not, decide_eq_decide]
  exact Instant.not_lt.symm

theorem contains_stop {t : Instant} (ht : range.contains t = true) :
    ({ range with stop := some now } : DateRange).contains t = !decide (now < t) := by
  simp only [DateRange.contains, Bool.and_eq_true] at ht
  simp only [DateRange.contains, ht.1, Bool.true_and, Option.all_some, decide_le_eq t]

theorem contains_start {s t : Instant} (ht : range.contains t = true) :
    ({ range with start := some s } : DateRange).contains t = !decide (t < s) := by
  simp only [DateRange.contains, Bool.and_eq_true] at ht
  simp only [DateRange.contains, ht.2, Bool.and_true, Option.all_some, decide_le_eq s]

/-! ## A put in an outermost bucket -/

def secondAt (second : Int) : Instant := (Instant.of? second 0).getD .epoch

/-- One put, ten seconds after the begin of the hour before 1970. -/
def sampleFiled : Traffic := filed .start 7 (secondAt (-3590))

theorem sampleFiled_reach : Traffic.Reach (fun _ => {}) false sampleFiled := filed_reach .refl fun _ h => nomatch h

def filedEvent : Event := (samplePut 7 (secondAt (-3590)) .index true).event

/-- By the assignment of the put. -/
def filedQuery (start stop : Option Int) : Query :=
  ⟨.assignment, [.ofNat 1], ⟨start.map secondAt, stop.map secondAt⟩, .first⟩

def filedAnswer (start stop : Option Int) (now : Int) : Except Trouble (Results Event) :=
  (filedQuery start stop).answer (StoreSettings.plan {}) sampleFiled.rows (secondAt now)

theorem filedAnswer_found {start stop : Option Int} {now : Int}
    (ht : (filedQuery start stop).trouble? (StoreSettings.plan {}) sampleFiled.rows (secondAt now) = none)
    (hw : sampleFiled.rows.entries.filter ((filedQuery start stop).asksFor (StoreSettings.plan {}) (secondAt now)) =
      [samplePutWrite 7 (secondAt (-3590)) .assignment (.ofNat 1)]) :
    filedAnswer start stop now = .ok ⟨[filedEvent], 1⟩ :=
  answer_of_sorted ht (.of_eq hw.symm) (List.pairwise_singleton ..)

theorem filedAnswer_empty {start stop : Option Int} {now : Int}
    (ht : (filedQuery start stop).trouble? (StoreSettings.plan {}) sampleFiled.rows (secondAt now) = none)
    (hw : sampleFiled.rows.entries.filter ((filedQuery start stop).asksFor (StoreSettings.plan {}) (secondAt now)) = []) :
    filedAnswer start stop now = .ok .empty :=
  answer_of_sorted ht (.of_eq hw.symm) .nil

/-! ## Open ends -/

/-- An open end is the present, but for later entries in the bucket of the present, and an open
start is one width before the end, but for earlier entries in the bucket of that. -/
theorem open_range_exact (q : Query) (p : Plan) (r : Rows) (now : Instant) :
    (q.range.stop = none →
      q.FindsBesides p r now { q.range with stop := some now } fun w => decide (now < w.event.eventDate)) ∧
    ∀ t, q.range.start = none → (q.range.stop.getD now).minusMillis? p.scheme.width = some t →
      q.FindsBesides p r now { q.range with start := some t } fun w => decide (w.event.eventDate < t) := by
  constructor
  · intro h
    exact findsBesides (narrows_stop h) fun w hw => contains_stop hw
  · intro t h ht
    exact findsBesides (narrows_start h ht) fun w hw => contains_start hw

/-- Where nothing stands on the far side of an open end, closing it makes no difference. -/
theorem open_range_exact_nothing_besides :
    filedAnswer (some (-3600)) (some 0) 0 = .ok ⟨[filedEvent], 1⟩ ∧
      filedAnswer (some (-3660)) (some (-60)) 0 = .ok ⟨[filedEvent], 1⟩ := by
  constructor
  · have hend : filedAnswer (some (-3600)) none 0 = .ok ⟨[filedEvent], 1⟩ :=
      filedAnswer_found (by decide +kernel) (by decide +kernel)
    have hbesides := (open_range_exact (filedQuery (some (-3600)) none) (StoreSettings.plan {}) sampleFiled.rows
      (secondAt 0)).1 rfl
    exact hbesides.of_none hend (by decide +kernel)
  · have hstart : filedAnswer none (some (-60)) 0 = .ok ⟨[filedEvent], 1⟩ :=
      filedAnswer_found (by decide +kernel) (by decide +kernel)
    have hbesides := (open_range_exact (filedQuery none (some (-60))) (StoreSettings.plan {}) sampleFiled.rows
      (secondAt 0)).2 (secondAt (-3660)) rfl (by decide +kernel)
    exact hbesides.of_none hstart (by decide +kernel)

/-- With an open end an event is found that lies five seconds ahead, and with an open start one that
lies twenty seconds before one width before the end. -/
theorem open_range_lets_in :
    Traffic.Reach (fun _ => {}) false sampleFiled ∧
      filedAnswer (some (-3600)) none (-3595) = .ok ⟨[filedEvent], 1⟩ ∧
      filedAnswer (some (-3600)) (some (-3595)) (-3595) = .ok .empty ∧
      (secondAt 30).minusMillis? (StoreSettings.plan {}).scheme.width = some (secondAt (-3570)) ∧
      filedAnswer none (some 30) 0 = .ok ⟨[filedEvent], 1⟩ ∧
      filedAnswer (some (-3570)) (some 30) 0 = .ok .empty := by
  refine ⟨sampleFiled_reach, ?_, ?_, by decide +kernel, ?_, ?_⟩
  · exact filedAnswer_found (by decide +kernel) (by decide +kernel)
  · exact filedAnswer_empty (by decide +kernel) (by decide +kernel)
  · exact filedAnswer_found (by decide +kernel) (by decide +kernel)
  · exact filedAnswer_empty (by decide +kernel) (by decide +kernel)

end DeviceEvents.Query
