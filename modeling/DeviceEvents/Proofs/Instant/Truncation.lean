import DeviceEvents.Instant.Basic
import Mathlib.Data.Int.Order.Basic
/-
  DeviceEvents.Proofs.Instant.Truncation — dates cut to milliseconds.

  The milliseconds of a leap second run on into the next second, so they do not follow the
  order of dates there. Cut dates are out of that trouble (`truncate_isPlain`): a cut leap
  second is a moment of the next second, unless there is no next second in range. From a
  plain date on, milliseconds follow the order (`IsPlain.millis_le`).
  - `millis_le_iff`: between two dates in order, milliseconds are in order as well unless the
    earlier one runs past the later (`RunsPast`).
  - `truncate_cases`: all that cutting does. It keeps the milliseconds (`millis_truncate`), and
    of a plain date it takes less than one (`IsPlain.truncate_within`), but it puts off any other
    to the next second (`truncate_of_not_isPlain`), past the dates of that which its
    milliseconds run past (`truncate_mono_iff`).
-/

namespace DeviceEvents.Instant

theorem le_def {s t : Instant} :
    s ≤ t ↔ s.second < t.second ∨ (s.second = t.second ∧ s.nano ≤ t.nano) := Iff.rfl

theorem lt_def {s t : Instant} :
    s < t ↔ s.second < t.second ∨ (s.second = t.second ∧ s.nano < t.nano) := Iff.rfl

theorem not_le {s t : Instant} : ¬s ≤ t ↔ t < s := by
  rw [← not_lt, Classical.not_not]

/-- In no leap second, or in that at the end of all time. -/
def IsPlain (t : Instant) : Prop := t.nano < 1000000000 ∨ t.second = 8210266876799

theorem IsPlain.millis_le {s t : Instant} (hs : s.IsPlain) (h : s ≤ t) : s.millis ≤ t.millis := by
  rw [le_def] at h
  have ht := t.inRange
  unfold IsPlain at hs
  unfold millis
  omega

theorem of?_eq_some {second : Int} {nano : Nat} {t : Instant} (h : of? second nano = some t) :
    t.second = second ∧ t.nano = nano := by
  unfold of? at h
  split at h
  · cases h
    exact ⟨rfl, rfl⟩
  · cases h

theorem of?_eq_none {second : Int} {nano : Nat} (h : of? second nano = none) :
    ¬((-8334601228800 ≤ second ∧ second ≤ 8210266876799) ∧ nano < 2000000000 ∧
      (1000000000 ≤ nano → second % 60 = 59)) := by
  unfold of? at h
  split at h
  · cases h
  · assumption

/-- Only a leap second in the last second of all time has no whole milliseconds to be cut to. -/
theorem ofMillis?_millis_eq_none {t : Instant} (h : ofMillis? t.millis = none) :
    t.second = 8210266876799 := by
  have hn := of?_eq_none h
  have hr := t.inRange
  have hlt := t.nano_lt
  unfold millis at hn
  omega

theorem truncate_isPlain (t : Instant) : t.truncate.IsPlain := by
  unfold truncate IsPlain
  cases h : ofMillis? t.millis with
  | none => exact .inr (ofMillis?_millis_eq_none h)
  | some u =>
    have hu := of?_eq_some h
    left
    show u.nano < 1000000000
    omega

/-! ## What a leap second runs past -/

/-- The milliseconds of the leap second `s` run past `t`, which lies in the second after. -/
def RunsPast (s t : Instant) : Prop :=
  1000000000 ≤ s.nano ∧ t.second = s.second + 1 ∧ t.nano / 1000000 + 1000 < s.nano / 1000000

instance (s t : Instant) : Decidable (s.RunsPast t) := inferInstanceAs (Decidable (_ ∧ _ ∧ _))

theorem millis_le_iff {s t : Instant} (h : s ≤ t) : s.millis ≤ t.millis ↔ ¬s.RunsPast t := by
  rw [le_def] at h
  have hs := s.nano_lt
  unfold millis RunsPast
  omega

/-- In the middle of a leap second. -/
def leapMoment : Instant := (of? 59 1500000000).getD .epoch

/-- In the second after that. -/
def momentAfter (nano : Nat) : Instant := (of? 60 nano).getD .epoch

/-! ## What cutting does -/

/-- A date is cut to the moment of its milliseconds, or there is no such moment. -/
theorem truncate_cases (t : Instant) :
    (t.truncate.second = t.millis / 1000 ∧ t.truncate.nano = (t.millis % 1000).toNat * 1000000) ∨
      (t.truncate = t ∧ t.second = 8210266876799 ∧ 1000000000 ≤ t.nano) := by
  unfold truncate
  cases h : ofMillis? t.millis with
  | some u => exact .inl (of?_eq_some h)
  | none =>
    have hlast := ofMillis?_millis_eq_none h
    have hn := of?_eq_none h
    refine .inr ⟨rfl, hlast, ?_⟩
    unfold millis at hn
    omega

theorem millis_truncate (t : Instant) : t.truncate.millis = t.millis := by
  rcases t.truncate_cases with ⟨hs, hn⟩ | ⟨h, -⟩
  · unfold millis at hs hn ⊢
    omega
  · rw [h]

theorem truncate_truncate (t : Instant) : t.truncate.truncate = t.truncate := by
  rcases t.truncate_cases with ⟨hs, hn⟩ | ⟨h, -⟩
  · rcases t.truncate.truncate_cases with ⟨hs', hn'⟩ | ⟨h', -⟩
    · rw [millis_truncate] at hs' hn'
      exact ext (hs'.trans hs.symm) (hn'.trans hn.symm)
    · exact h'
  · rw [h, h]

theorem IsPlain.truncate_within {t : Instant} (h : t.IsPlain) :
    t.truncate.second = t.second ∧ t.truncate.nano ≤ t.nano ∧ t.nano < t.truncate.nano + 1000000 := by
  rcases t.truncate_cases with ⟨hs, hn⟩ | ⟨he, -⟩
  · have hr := t.truncate.inRange
    have hlt := t.nano_lt
    unfold IsPlain at h
    unfold millis at hs hn
    omega
  · rw [he]
    omega

theorem truncate_of_not_isPlain {t : Instant} (h : ¬t.IsPlain) :
    t.truncate.second = t.second + 1 ∧ t.truncate.nano = (t.nano / 1000000 - 1000) * 1000000 := by
  unfold IsPlain at h
  rcases t.truncate_cases with ⟨hs, hn⟩ | ⟨-, hlast, -⟩
  · have hlt := t.nano_lt
    unfold millis at hs hn
    omega
  · exact absurd (.inr hlast) h

theorem truncate_le_iff {t : Instant} : t.truncate ≤ t ↔ t.IsPlain := by
  constructor
  · intro hle
    by_contra h
    have hoff := truncate_of_not_isPlain h
    rw [le_def] at hle
    omega
  · intro h
    have hw := h.truncate_within
    rw [le_def]
    omega

/-- Cut dates are in the order of their milliseconds, up to what is left of a leap second at the
end of all time. -/
theorem truncate_mono_iff {s t : Instant} (h : s ≤ t) : s.truncate ≤ t.truncate ↔ ¬s.RunsPast t := by
  rw [← millis_le_iff h]
  constructor
  · intro hle
    have hm := s.truncate_isPlain.millis_le hle
    rwa [millis_truncate, millis_truncate] at hm
  · intro hm
    rw [le_def] at h ⊢
    have hlt := t.nano_lt
    have hr := s.inRange
    have hr' := t.inRange
    rcases s.truncate_cases with ⟨hs, hn⟩ | ⟨hs, hlast, hleap⟩
    · rcases t.truncate_cases with ⟨ht, hn'⟩ | ⟨ht, hlast', hleap'⟩
      · omega
      · rw [ht]
        have hrt := s.truncate.inRange
        unfold millis at hs hn hm
        omega
    · rcases t.truncate_cases with ⟨ht, hn'⟩ | ⟨ht, hlast', hleap'⟩
      · have hrt := t.truncate.inRange
        unfold millis at ht hn' hm
        omega
      · rw [hs, ht]
        exact h

end DeviceEvents.Instant
