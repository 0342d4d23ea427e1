import DeviceEvents.Proofs.Instant.Truncation
/-
  DeviceEvents.Proofs.Instant.Elapsed — going back by a length of time.

  On the count of nanoseconds, in which a leap second runs on into the next second, going back
  by milliseconds is plain subtraction, be it inside a leap second, out of one or past one
  (`minusMillis?_eq_of?`). It fails only where no instant at all has the difference
  (`exists_of_minusMillis?`).
-/

namespace DeviceEvents.Instant

/-- Since 1970. -/
def nanos (t : Instant) : Int := t.second * 1000000000 + t.nano

theorem millis_eq_nanos_div (t : Instant) : t.millis = t.nanos / 1000000 := by
  unfold millis nanos
  omega

/-- The numbers that going back leads to are off only in being too early. -/
theorem minusMillis?_eq_of? (t : Instant) (ms : Nat) : ∃ (second : Int) (nano : Nat),
    t.minusMillis? ms = of? second nano ∧ second * 1000000000 + nano = t.nanos - ms * 1000000 ∧
      second ≤ 8210266876799 ∧ (nano < 1000000000 ∨ second = t.second ∧ nano ≤ t.nano) := by
  have hr := t.inRange
  have hlt := t.nano_lt
  unfold minusMillis? nanos
  by_cases hinside : 1000000000 ≤ t.nano ∧ ms / 1000 = 0
  · exact ⟨t.second, t.nano - ms % 1000 * 1000000, if_pos hinside, by omega⟩
  · simp only [hinside, if_false]
    by_cases hleap : 1000000000 ≤ t.nano
    · simp only [hleap, if_true]
      split
      · exact ⟨_, _, rfl, by omega⟩
      · exact ⟨_, _, rfl, by omega⟩
    · simp only [hleap, if_false]
      split
      · exact ⟨_, _, rfl, by omega⟩
      · exact ⟨_, _, rfl, by omega⟩

variable {t u : Instant} {ms : Nat}

theorem nanos_of_minusMillis? (h : t.minusMillis? ms = some u) : u.nanos = t.nanos - ms * 1000000 := by
  obtain ⟨second, nano, heq, hdiff, -⟩ := t.minusMillis?_eq_of? ms
  have hu := of?_eq_some (heq.symm.trans h)
  rw [nanos, hu.1, hu.2, hdiff]

/-- Going back succeeds if there is any instant so many milliseconds before. -/
theorem exists_of_minusMillis? (h : u.nanos = t.nanos - ms * 1000000) : ∃ v, t.minusMillis? ms = some v := by
  obtain ⟨second, nano, heq, hdiff, hlast, hnano⟩ := t.minusMillis?_eq_of? ms
  rw [heq, ← Option.ne_none_iff_exists']
  intro hnone
  refine of?_eq_none hnone ?_
  have hr := t.inRange
  have hlt := t.nano_lt
  have hleap := t.leap
  have hu := u.inRange
  unfold nanos at h hdiff
  omega

end DeviceEvents.Instant
