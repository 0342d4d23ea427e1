import DeviceEvents.Proofs.Instant.Elapsed
import DeviceEvents.Proofs.Store.Covering
import Mathlib.Data.List.Chain
/-
  DeviceEvents.Proofs.Store.Enumeration — listing and counting the buckets of a range in words.

  A machine counts in words of 64 bits, where a sum may not fit and a divisor may be nothing. Done with
  words that are checked at every step, the work on a range never fails and gives what the scheme
  says (`spanInWords?_eq`, `countInWords?_eq`, `coveringInWords?_eq`): all dates lie within some ten to
  the sixteenth milliseconds of 1970, and buckets are not further off than the milliseconds in them
  (`bucketOf_within`). So the count is never cut off, and is the length of the list (`length_covering`).

  The list goes down from the bucket of the end one by one (`covering_head?`, `covering_isChain`,
  `covering_getLast?`). A range that starts after its end leaves one bucket (`covering_inverted`), and an
  open start two, or one if nothing lies a width before the end (`covering_open`).
-/

namespace DeviceEvents.BucketScheme

/-! ## In words -/

/-- A number in a word with a sign, if it fits. -/
def word? (n : Int) : Option Int :=
  if -0x8000000000000000 ≤ n ∧ n < 0x8000000000000000 then some n else none

/-- A count in a word without a sign, if it fits. -/
def unsigned? (n : Nat) : Option Nat := if n < 0x10000000000000000 then some n else none

/-- The width that is made of a number of nanoseconds; one that does not fit is the greatest. -/
def widthInWords (nanos : Nat) : Int := max ((word? (nanos / 1000000)).getD 0x7fffffffffffffff) 1

def millisInWords? (t : Instant) : Option Int := do
  let ms ← word? (t.second * 1000)
  word? (ms + t.nano / 1000000)

def bucketInWords? (width : Int) (t : Instant) : Option Int := do
  let ms ← millisInWords? t
  if width = 0 then none else word? (ms / width)

/-- Going back by the width takes its opposite. -/
def startInWords? (width : Int) (r : DateRange) (stop : Instant) : Option Instant :=
  match r.start with
  | some t => some t
  | none => do
    let back ← word? (-width)
    return (stop.minusMillis? back.natAbs).getD stop

def spanInWords? (nanos : Nat) (r : DateRange) (now : Instant) : Option (Int × Int) := do
  let start ← startInWords? (widthInWords nanos) r (r.stop.getD now)
  let newest ← bucketInWords? (widthInWords nanos) (r.stop.getD now)
  let oldest ← bucketInWords? (widthInWords nanos) start
  return (min oldest newest, newest)

def countInWords? (nanos : Nat) (r : DateRange) (now : Instant) : Option Nat := do
  let (oldest, newest) ← spanInWords? nanos r now
  let apart ← unsigned? (newest - oldest).natAbs
  unsigned? (apart + 1)

/-- Each bucket is one less than that before it. -/
def descendInWords? : Nat → Int → Option (List Int)
  | 0, newest => return [newest]
  | n + 1, newest => do
    let next ← word? (newest - 1)
    return newest :: (← descendInWords? n next)

def coveringInWords? (nanos : Nat) (r : DateRange) (now : Instant) : Option (List Int) := do
  let (oldest, newest) ← spanInWords? nanos r now
  let apart ← unsigned? (newest - oldest).natAbs
  descendInWords? apart newest

theorem word?_eq {n : Int} (h : -0x8000000000000000 ≤ n ∧ n < 0x8000000000000000) : word? n = some n := if_pos h

theorem unsigned?_eq {n : Nat} (h : n < 0x10000000000000000) : unsigned? n = some n := if_pos h

theorem widthInWords_eq (nanos : Nat) : widthInWords nanos = (ofNanos nanos).width := by
  unfold widthInWords word? ofNanos
  split
  · simp only [Option.getD_some]; omega
  · simp only [Option.getD_none]; omega

variable (s : BucketScheme)

theorem millis_within (t : Instant) : -8334601228800000 ≤ t.millis ∧ t.millis < 8210266876801000 := by
  have hr := t.inRange
  have hlt := t.nano_lt
  unfold Instant.millis
  omega

theorem bucketOf_within (t : Instant) : -8334601228800000 ≤ s.bucketOf t ∧ s.bucketOf t < 8210266876801000 := by
  have hw := s.width_pos
  have ht := millis_within t
  unfold bucketOf
  constructor
  · exact Int.le_ediv_of_mul_le (by omega) (by omega)
  · exact Int.ediv_lt_of_lt_mul (by omega) (by omega)

theorem millisInWords?_eq (t : Instant) : millisInWords? t = some t.millis := by
  have hr := t.inRange
  have hlt := t.nano_lt
  have ht := millis_within t
  unfold millisInWords?
  rw [word?_eq (by omega)]
  exact word?_eq (by unfold Instant.millis at ht; omega)

theorem bucketInWords?_eq (t : Instant) : bucketInWords? s.width t = some (s.bucketOf t) := by
  have hw := s.width_pos
  have hb := s.bucketOf_within t
  unfold bucketInWords?
  rw [millisInWords?_eq]
  show (if (s.width : Int) = 0 then none else word? (s.bucketOf t)) = _
  rw [if_neg (by omega)]
  exact word?_eq (by omega)

/-- Where the range starts. -/
def startOf (r : DateRange) (now : Instant) : Instant :=
  r.start.getD (((r.stop.getD now).minusMillis? s.width).getD (r.stop.getD now))

theorem span_eq (r : DateRange) (now : Instant) : s.span r now =
    (min (s.bucketOf (s.startOf r now)) (s.bucketOf (r.stop.getD now)), s.bucketOf (r.stop.getD now)) := rfl

theorem startInWords?_eq (r : DateRange) (now : Instant) :
    startInWords? s.width r (r.stop.getD now) = some (s.startOf r now) := by
  have hw := s.width_lt
  unfold startInWords? startOf
  cases r.start with
  | some t => rfl
  | none =>
    rw [word?_eq (by omega)]
    show some (((r.stop.getD now).minusMillis? (-(s.width : Int)).natAbs).getD _) = _
    rw [Int.natAbs_neg, Int.natAbs_natCast]
    rfl

variable (nanos : Nat) (r : DateRange) (now : Instant)

theorem spanInWords?_eq : spanInWords? nanos r now = some ((ofNanos nanos).span r now) := by
  unfold spanInWords?
  rw [widthInWords_eq, startInWords?_eq]
  simp only [bucketInWords?_eq, span_eq, Option.bind_eq_bind, Option.bind_some, Option.pure_def]

theorem span_within : -8334601228800000 ≤ (s.span r now).1 ∧ (s.span r now).2 < 8210266876801000 := by
  have hstart := s.bucketOf_within (s.startOf r now)
  have hstop := s.bucketOf_within (r.stop.getD now)
  rw [span_eq]
  exact ⟨by show _ ≤ min _ _; omega, hstop.2⟩

/-- The count is never cut off. -/
theorem length_covering : (s.covering r now).length = s.count r now := by
  have hle := s.span_le r now
  have hin := s.span_within r now
  simp only [covering, count, List.length_map, List.length_range]
  omega

theorem countInWords?_eq : countInWords? nanos r now = some ((ofNanos nanos).count r now) := by
  have hle := (ofNanos nanos).span_le r now
  have hin := (ofNanos nanos).span_within r now
  unfold countInWords?
  rw [spanInWords?_eq, ← length_covering]
  simp only [covering, Option.bind_eq_bind, Option.bind_some, List.length_map, List.length_range]
  rw [unsigned?_eq (by omega), Option.bind_some, unsigned?_eq (by omega)]
  congr 1
  omega

theorem descendInWords?_eq (n : Nat) (newest : Int) (hlo : -0x8000000000000000 ≤ newest - n)
    (hhi : newest < 0x8000000000000000) :
    descendInWords? n newest = some ((List.range (n + 1)).map fun (i : Nat) => newest - i) := by
  induction n generalizing newest with
  | zero => simp [descendInWords?]
  | succ n ih =>
    rw [descendInWords?, word?_eq (by omega), List.range_succ_eq_map]
    simp only [Option.bind_eq_bind, Option.bind_some]
    rw [ih (newest - 1) (by omega) (by omega)]
    simp only [Option.bind_some, Option.pure_def, List.map_cons, List.map_map]
    congr 2
    · omega
    · refine List.map_congr_left fun i _ => ?_
      simp only [Function.comp_apply]
      omega

theorem coveringInWords?_eq : coveringInWords? nanos r now = some ((ofNanos nanos).covering r now) := by
  have hle := (ofNanos nanos).span_le r now
  have hin := (ofNanos nanos).span_within r now
  unfold coveringInWords?
  rw [spanInWords?_eq]
  simp only [Option.bind_eq_bind, Option.bind_some]
  rw [unsigned?_eq (by omega), Option.bind_some, descendInWords?_eq _ _ (by omega) (by omega)]
  simp only [covering]
  congr 3
  omega

/-! ## The list -/

theorem covering_head? : (s.covering r now).head? = some (s.bucketOf (r.stop.getD now)) := by
  simp only [covering, List.head?_map, List.head?_range, Nat.succ_ne_zero, if_false, Option.map_some, span_eq]
  congr 1
  omega

theorem covering_getLast? : (s.covering r now).getLast? = some (s.span r now).1 := by
  have hle := s.span_le r now
  simp only [covering, List.getLast?_map, List.getLast?_range, Nat.succ_ne_zero, if_false, Option.map_some]
  congr 1
  omega

theorem covering_isChain : (s.covering r now).IsChain fun b c => b = c + 1 := by
  rw [List.isChain_iff_getElem]
  intro i hi
  simp only [covering, List.getElem_map, List.getElem_range]
  omega

variable {s r now} {b : Int}

theorem covering_of_span_eq (h : s.span r now = (b, b)) : s.covering r now = [b] := by
  simp [covering, h]

theorem covering_of_span_before (h : s.span r now = (b - 1, b)) : s.covering r now = [b, b - 1] := by
  have hlength : (b - (b - 1)).toNat + 1 = 2 := by omega
  simp only [covering, h, hlength]
  simp [List.range_succ]

/-- The milliseconds of the end are in order with those of a later start, unless the end is in a leap second. -/
theorem covering_inverted {start stop : Instant} (h : stop < start) (hstop : stop.nano < 1000000000) :
    s.covering (.between start stop) now = [s.bucketOf stop] := by
  apply covering_of_span_eq
  have hle : stop ≤ start := by rw [Instant.lt_def] at h; rw [Instant.le_def]; omega
  have hb := s.bucketOf_le (.inl hstop) hle
  rw [span_eq]
  show (min (s.bucketOf start) (s.bucketOf stop), s.bucketOf stop) = _
  rw [Int.min_eq_right hb]

theorem bucketOf_minusMillis? {t u : Instant} (h : t.minusMillis? s.width = some u) : s.bucketOf u = s.bucketOf t - 1 := by
  have hw : (s.width : Int) ≠ 0 := by have := s.width_pos; omega
  have hnanos := Instant.nanos_of_minusMillis? h
  have hms : u.millis = t.millis + s.width * (-1) := by
    rw [u.millis_eq_nanos_div, t.millis_eq_nanos_div]
    omega
  rw [bucketOf, hms, Int.add_mul_ediv_left _ _ hw]
  rfl

/-- Does any instant lie one width before? -/
def Reaches (s : BucketScheme) (t : Instant) : Prop := ∃ u : Instant, u.nanos = t.nanos - s.width * 1000000

theorem covering_open (h : r.start = none) :
    (s.Reaches (r.stop.getD now) →
      s.covering r now = [s.bucketOf (r.stop.getD now), s.bucketOf (r.stop.getD now) - 1]) ∧
    (¬s.Reaches (r.stop.getD now) → s.covering r now = [s.bucketOf (r.stop.getD now)]) := by
  constructor
  · intro hreach
    obtain ⟨u, hu⟩ := hreach
    obtain ⟨v, hv⟩ := Instant.exists_of_minusMillis? hu
    apply covering_of_span_before
    rw [span_eq, startOf, h, hv]
    simp only [Option.getD_none, Option.getD_some, bucketOf_minusMillis? hv]
    congr 1
    omega
  · intro hreach
    have hnone : (r.stop.getD now).minusMillis? s.width = none := by
      rw [Option.eq_none_iff_forall_ne_some]
      intro u hu
      exact hreach ⟨u, Instant.nanos_of_minusMillis? hu⟩
    apply covering_of_span_eq
    rw [span_eq, startOf, h, hnone]
    simp only [Option.getD_none, Int.min_self]

/-- For every width in nanoseconds, range and clock: in words the work on the range succeeds and gives what the
scheme says. The buckets are as many as are counted and go down one by one, from that of the end to that of the
start or, if it lies after the end, to that of the end. A range that starts after an end outside of leap seconds has the
bucket of the end only, and so has one with an open start if no instant lies one width before the end; if there
is one, it also has the bucket before. -/
theorem enumeration_exact (nanos : Nat) (r : DateRange) (now : Instant) :
    let s := ofNanos nanos
    let stop := r.stop.getD now
    (spanInWords? nanos r now = some (s.span r now) ∧ countInWords? nanos r now = some (s.count r now) ∧
      coveringInWords? nanos r now = some (s.covering r now)) ∧
    (s.covering r now).length = s.count r now ∧
    (s.covering r now).head? = some (s.bucketOf stop) ∧
    (s.covering r now).getLast? = some (min (s.bucketOf (s.startOf r now)) (s.bucketOf stop)) ∧
    (s.covering r now).IsChain (fun b c => b = c + 1) ∧ (s.covering r now).Pairwise (fun b c => c < b) ∧
    (∀ start last, r = .between start last → last < start → last.nano < 1000000000 →
      s.covering r now = [s.bucketOf last]) ∧
    (r.start = none →
      (s.Reaches stop → s.covering r now = [s.bucketOf stop, s.bucketOf stop - 1]) ∧
      (¬s.Reaches stop → s.covering r now = [s.bucketOf stop])) := by
  intro s stop
  refine ⟨⟨spanInWords?_eq nanos r now, countInWords?_eq nanos r now, coveringInWords?_eq nanos r now⟩,
    s.length_covering r now, s.covering_head? r now, s.covering_getLast? r now, s.covering_isChain r now,
    s.pairwise_covering r now, ?_, covering_open⟩
  intro start last hr hinverted hlast
  rw [hr]
  exact covering_inverted hinverted hlast

/-- The first of all instants. -/
def firstInstant : Instant := (Instant.of? (-8334601228800) 0).getD .epoch

/-- In an hourly scheme: a range that starts after its end, one with an open start, and one that ends with the
first of all instants, an hour before which there is none. -/
theorem enumeration_exact_hourly :
    (Instant.epoch < Instant.momentAfter 0 ∧
      hourly.covering (.between (Instant.momentAfter 0) .epoch) .epoch = [0]) ∧
    (hourly.Reaches .epoch ∧ hourly.covering ⟨none, none⟩ .epoch = [0, -1]) ∧
    (¬hourly.Reaches firstInstant ∧ hourly.covering ⟨none, some firstInstant⟩ .epoch = [-2315167008]) := by
  have hinverted : Instant.epoch < Instant.momentAfter 0 := by decide
  have hreach : hourly.Reaches .epoch := ⟨(Instant.of? (-3600) 0).getD .epoch, by decide⟩
  have hfirst : ¬hourly.Reaches firstInstant := by
    rintro ⟨t, ht⟩
    have hr := t.inRange
    have hnanos : firstInstant.nanos - hourly.width * 1000000 < -8334601228800000000000 := by decide
    unfold Instant.nanos at ht hnanos
    omega
  refine ⟨⟨hinverted, ?_⟩, ⟨hreach, ?_⟩, hfirst, ?_⟩
  · exact (enumeration_exact 3600000000000 _ .epoch).2.2.2.2.2.2.1 _ _ rfl hinverted (by decide)
  · exact ((enumeration_exact 3600000000000 ⟨none, none⟩ .epoch).2.2.2.2.2.2.2 rfl).1 hreach
  · exact ((enumeration_exact 3600000000000 ⟨none, some firstInstant⟩ .epoch).2.2.2.2.2.2.2 rfl).2 hfirst

end DeviceEvents.BucketScheme
