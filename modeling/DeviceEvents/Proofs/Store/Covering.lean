import DeviceEvents.Proofs.Instant.Truncation
import DeviceEvents.Store.Bucket
/-
  DeviceEvents.Proofs.Store.Covering — the buckets of a range.

  They are consecutive and listed newest first (`mem_covering`, `pairwise_covering`). A plain
  date in a closed range that starts outside of leap seconds has its bucket among them
  (`bucketOf_mem_covering`).

  In general, whether the buckets of two dates in order are in order as well is a matter of
  leap seconds alone (`bucketOf_mono_iff`), since the scheme of the finest buckets tells any two
  milliseconds apart. So a closed range covers all that it contains, whatever the width, unless
  a leap second in it runs past a date after it (`dates_covered`).
-/

namespace DeviceEvents.BucketScheme

open Instant (leapMoment momentAfter)

variable (s : BucketScheme)

theorem bucketOf_le {t u : Instant} (ht : t.IsPlain) (h : t ≤ u) : s.bucketOf t ≤ s.bucketOf u :=
  Int.ediv_le_ediv (by have := s.width_pos; omega) (ht.millis_le h)

theorem span_le (r : DateRange) (now : Instant) : (s.span r now).1 ≤ (s.span r now).2 :=
  Int.min_le_right _ _

theorem mem_covering {r : DateRange} {now : Instant} {b : Int} :
    b ∈ s.covering r now ↔ (s.span r now).1 ≤ b ∧ b ≤ (s.span r now).2 := by
  have hle := s.span_le r now
  simp only [covering, List.mem_map, List.mem_range]
  constructor
  · intro h
    obtain ⟨i, hi, rfl⟩ := h
    omega
  · intro h
    obtain ⟨ho, hn⟩ := h
    exact ⟨((s.span r now).2 - b).toNat, by omega, by omega⟩

theorem pairwise_covering (r : DateRange) (now : Instant) :
    (s.covering r now).Pairwise fun a b => b < a := by
  simp only [covering]
  rw [List.pairwise_map]
  refine List.pairwise_lt_range.imp fun {i j} h => ?_
  omega

theorem bucketOf_mem_covering {start stop t now : Instant} (hs : start.nano < 1000000000)
    (ht : t.IsPlain) (h : (DateRange.between start stop).contains t = true) :
    s.bucketOf t ∈ s.covering (.between start stop) now := by
  simp only [DateRange.contains, DateRange.between, Option.all_some, Bool.and_eq_true,
    decide_eq_true_eq] at h
  have hlo := s.bucketOf_le (.inl hs) h.1
  have hhi := s.bucketOf_le ht h.2
  rw [mem_covering]
  simp only [span, DateRange.between, Option.getD_some]
  omega

/-! ## Leap seconds in a range -/

theorem bucketOf_eq_iff {t : Instant} {b : Int} :
    s.bucketOf t = b ↔ b * s.width ≤ t.millis ∧ t.millis < (b + 1) * s.width := by
  have hw : (0 : Int) < s.width := by have := s.width_pos; omega
  rw [bucketOf, Int.ediv_eq_iff_of_pos hw, Int.add_mul, Int.one_mul]

/-- The scheme of one bucket for each millisecond. -/
def finest : BucketScheme := ofNanos 0

theorem bucketOf_finest (t : Instant) : finest.bucketOf t = t.millis := Int.ediv_one _

theorem bucketOf_truncate (t : Instant) : s.bucketOf t.truncate = s.bucketOf t := by
  unfold bucketOf
  rw [t.millis_truncate]

theorem bucketOf_le_of_millis {t u : Instant} (h : t.millis ≤ u.millis) : s.bucketOf t ≤ s.bucketOf u :=
  Int.ediv_le_ediv (by have := s.width_pos; omega) h

theorem bucketOf_mono_iff {t u : Instant} (h : t ≤ u) :
    (∀ s : BucketScheme, s.bucketOf t ≤ s.bucketOf u) ↔ ¬t.RunsPast u := by
  rw [← Instant.millis_le_iff h]
  constructor
  · intro hs
    have hf := hs finest
    rwa [bucketOf_finest, bucketOf_finest] at hf
  · intro hm s
    exact s.bucketOf_le_of_millis hm

theorem mem_covering_between {start stop now : Instant} {b : Int} :
    b ∈ s.covering (.between start stop) now ↔
      (s.bucketOf start ≤ b ∨ s.bucketOf stop ≤ b) ∧ b ≤ s.bucketOf stop := by
  rw [mem_covering]
  simp only [span, DateRange.between, Option.getD_some]
  omega

theorem covered_iff {start t stop now : Instant} (hstart : start ≤ t) (hstop : t ≤ stop) :
    (∀ s : BucketScheme, s.bucketOf t ∈ s.covering (.between start stop) now) ↔
      ¬t.RunsPast stop ∧ (start.RunsPast t → t.millis = stop.millis) := by
  have hlo := Instant.millis_le_iff hstart
  have hhi := Instant.millis_le_iff hstop
  constructor
  · intro h
    have hf := (finest.mem_covering_between).1 (h finest)
    simp only [bucketOf_finest] at hf
    obtain ⟨hmin, hmax⟩ := hf
    refine ⟨hhi.1 hmax, ?_⟩
    intro hpast
    have hlt : ¬start.millis ≤ t.millis := fun hle => hlo.1 hle hpast
    omega
  · intro h s
    obtain ⟨hmax, hmin⟩ := h
    refine s.mem_covering_between.2 ⟨?_, s.bucketOf_le_of_millis (hhi.2 hmax)⟩
    by_cases hpast : start.RunsPast t
    · exact .inr (s.bucketOf_le_of_millis (Int.le_of_eq (hmin hpast).symm))
    · exact .inl (s.bucketOf_le_of_millis (hlo.2 hpast))

/-- A bucket holds the milliseconds from its number times the width on, up to the next bucket, and
the buckets of a closed range are those of all its dates, as far as no leap second runs past them. -/
theorem dates_covered (start t stop now : Instant) (hstart : start ≤ t) (hstop : t ≤ stop) :
    (∀ (s : BucketScheme) (b : Int), s.bucketOf t = b ↔ b * s.width ≤ t.millis ∧ t.millis < (b + 1) * s.width) ∧
    ((∀ s : BucketScheme, s.bucketOf t ≤ s.bucketOf stop) ↔ ¬t.RunsPast stop) ∧
    ((∀ s : BucketScheme, s.bucketOf t ∈ s.covering (.between start stop) now) ↔
      ¬t.RunsPast stop ∧ (start.RunsPast t → t.millis = stop.millis)) := by
  refine ⟨?_, bucketOf_mono_iff hstop, covered_iff hstart hstop⟩
  intro s b
  exact s.bucketOf_eq_iff

/-- What a leap second does not run past is covered by a range that starts in it. -/
theorem dates_covered_from_leap :
    (leapMoment ≤ momentAfter 700000000 ∧ momentAfter 700000000 ≤ momentAfter 900000000) ∧
      ∀ s : BucketScheme, s.bucketOf (momentAfter 700000000) ∈
        s.covering (.between leapMoment (momentAfter 900000000)) .epoch := by
  have hstart : leapMoment ≤ momentAfter 700000000 := by decide
  have hstop : momentAfter 700000000 ≤ momentAfter 900000000 := by decide
  have hcovered := (dates_covered leapMoment (momentAfter 700000000) (momentAfter 900000000) .epoch hstart hstop).2.2
  refine ⟨⟨hstart, hstop⟩, hcovered.2 ⟨by decide, ?_⟩⟩
  intro hpast
  exact absurd hpast (by decide)

/-- A range that starts in a leap second leaves out what that runs past. -/
theorem leap_start_uncovered :
    leapMoment ≤ momentAfter 0 ∧ momentAfter 0 ≤ momentAfter 900000000 ∧
      finest.bucketOf (momentAfter 0) < finest.bucketOf leapMoment ∧
      finest.bucketOf (momentAfter 0) ∉ finest.covering (.between leapMoment (momentAfter 900000000)) .epoch := by
  refine ⟨by decide, by decide, by decide, ?_⟩
  rw [mem_covering_between]
  decide

end DeviceEvents.BucketScheme
