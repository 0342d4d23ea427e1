import DeviceEvents.Instant.Civil
/-
  DeviceEvents.Proofs.Instant.Calendar — an instant is at its date and time of day.

  The days are numbered through, and a day number is taken apart: the year that holds it
  (`yearOfDay_holds`), in that year the month and in the month the day (`splitDays_within`,
  `yearOfDay_months`). Put together again these are the day number, and so the date and time
  of an instant lead back to it (`ofCivil?_civil`). A leap second is second 60 of its minute.
-/

namespace DeviceEvents

/-! ## Years -/

/-- The guess is off by one year at most, and then it is mended. -/
theorem yearOfDay_holds (d : Int) :
    daysBeforeYear (yearOfDay d) ≤ d ∧ d < daysBeforeYear (yearOfDay d + 1) := by
  unfold yearOfDay
  simp only
  split
  · rw [Int.sub_add_cancel]
    unfold daysBeforeYear at *
    omega
  · split
    · unfold daysBeforeYear at *
      omega
    · omega

theorem isLeapYear_iff (y : Int) : isLeapYear y = true ↔ y % 4 = 0 ∧ (y % 100 ≠ 0 ∨ y % 400 = 0) := by
  simp [isLeapYear]

/-- From one year to the next there is a day more in a leap year. -/
theorem daysBeforeYear_succ (y : Int) :
    daysBeforeYear (y + 1) = daysBeforeYear y + 365 + (if isLeapYear y then 1 else 0) := by
  have h4 : (y + 1 + 3) / 4 = (y + 3) / 4 + (if y % 4 = 0 then 1 else 0) := by split <;> omega
  have h100 : (y + 1 + 99) / 100 = (y + 99) / 100 + (if y % 100 = 0 then 1 else 0) := by split <;> omega
  have h400 : (y + 1 + 399) / 400 = (y + 399) / 400 + (if y % 400 = 0 then 1 else 0) := by split <;> omega
  unfold daysBeforeYear
  rw [h4, h100, h400]
  by_cases hleap : y % 4 = 0 ∧ (y % 100 ≠ 0 ∨ y % 400 = 0)
  · rw [if_pos ((isLeapYear_iff y).2 hleap)]
    split <;> split <;> split <;> omega
  · rw [if_neg (mt (isLeapYear_iff y).1 hleap)]
    split <;> split <;> split <;> omega

theorem daysBeforeYear_le {y z : Int} (h : y ≤ z) : daysBeforeYear y ≤ daysBeforeYear z := by
  obtain ⟨n, rfl⟩ := Int.le.dest h
  clear h
  induction n with
  | zero => simp
  | succ n ih =>
    have hnext := daysBeforeYear_succ (y + n)
    rw [Int.natCast_succ, ← Int.add_assoc, hnext]
    split <;> omega

/-- The months of a year are as long as the year. -/
theorem monthLengths_total (y : Int) :
    (((monthLengths y).foldl Nat.add 0 : Nat) : Int) = daysBeforeYear (y + 1) - daysBeforeYear y := by
  rw [daysBeforeYear_succ, monthLengths]
  cases isLeapYear y with
  | true =>
    show (366 : Int) = _
    rw [if_pos rfl]
    omega
  | false =>
    show (365 : Int) = _
    rw [if_neg Bool.false_ne_true]
    omega

theorem monthLengths_le (y : Int) : ∀ l ∈ monthLengths y, l ≤ 31 := by
  unfold monthLengths
  cases isLeapYear y <;> decide

/-! ## Months -/

theorem foldl_add_eq (ls : List Nat) (n : Nat) : ls.foldl Nat.add n = n + ls.foldl Nat.add 0 := by
  induction ls generalizing n with
  | nil => rfl
  | cons l ls ih =>
    rw [List.foldl_cons, List.foldl_cons, ih (Nat.add n l), ih (Nat.add 0 l)]
    show n + l + _ = n + (0 + l + _)
    omega

/-- A day within the parts falls into one of them, behind the days of those before it. -/
theorem splitDays_within (ls : List Nat) (n : Nat) (h : n < ls.foldl Nat.add 0) :
    (splitDays ls n).1 < ls.length ∧ (splitDays ls n).2 < ls.getD (splitDays ls n).1 0 ∧
      (ls.take (splitDays ls n).1).foldl Nat.add 0 + (splitDays ls n).2 = n := by
  induction ls generalizing n with
  | nil => exact absurd h (Nat.not_lt_zero n)
  | cons l ls ih =>
    rw [List.foldl_cons, foldl_add_eq] at h
    unfold splitDays
    by_cases hn : n < l
    · simp [hn]
    · have hrest : n - l < ls.foldl Nat.add 0 := by
        have hl : Nat.add 0 l = l := Nat.zero_add l
        omega
      obtain ⟨hpart, hday, hsum⟩ := ih (n - l) hrest
      simp only [hn, if_false]
      refine ⟨Nat.succ_lt_succ hpart, hday, ?_⟩
      rw [List.take_succ_cons, List.foldl_cons, foldl_add_eq]
      have hl : Nat.add 0 l = l := Nat.zero_add l
      omega

/-! ## The instant -/

namespace Instant

/-- All instants are in years that have dates. -/
theorem civil_year (t : Instant) : -262143 ≤ t.civil.year ∧ t.civil.year ≤ 262142 := by
  have hyear := yearOfDay_holds (t.second / 86400 + epochDay)
  have hrange := t.inRange
  show -262143 ≤ yearOfDay (t.second / 86400 + epochDay) ∧ yearOfDay (t.second / 86400 + epochDay) ≤ 262142
  generalize yearOfDay (t.second / 86400 + epochDay) = y at *
  have hepoch : epochDay = 719528 := rfl
  by_cases hlast : y ≤ 262142
  · refine ⟨?_, hlast⟩
    by_cases hfirst : -262143 ≤ y
    · exact hfirst
    · have hbefore : daysBeforeYear (y + 1) ≤ -95745764 :=
        Int.le_trans (daysBeforeYear_le (show y + 1 ≤ -262143 by omega)) (by decide)
      omega
  · have hbehind : 95745765 ≤ daysBeforeYear y :=
      Int.le_trans (show 95745765 ≤ daysBeforeYear 262143 by decide) (daysBeforeYear_le (by omega))
    omega

/-- Put together again, the date is the day and the time of day the second. -/
theorem ofCivil?_civil (t : Instant) : ofCivil? t.civil 0 = some t := by
  have hyears := t.civil_year
  have hyear := yearOfDay_holds (t.second / 86400 + epochDay)
  have hnano := t.nano_lt
  have hthere : of? t.second t.nano = some t := dif_pos ⟨t.inRange, hnano, t.leap⟩
  unfold civil at hyears ⊢
  simp only at hyears ⊢
  generalize hd : t.second / 86400 + epochDay = d at *
  generalize yearOfDay d = y at *
  have htotal := monthLengths_total y
  obtain ⟨hmonth, hday, hsum⟩ := splitDays_within (monthLengths y) (d - daysBeforeYear y).toNat (by omega)
  have hmonths : (monthLengths y).length = 12 := rfl
  generalize (splitDays (monthLengths y) (d - daysBeforeYear y).toNat).1 = m at *
  generalize (splitDays (monthLengths y) (d - daysBeforeYear y).toNat).2 = r at *
  generalize hs : (t.second % 86400).toNat = s
  have hminute : 1000000000 ≤ t.nano → s % 60 = 59 := by
    intro hlong
    have hlast := t.leap hlong
    omega
  unfold ofCivil?
  simp only [Nat.add_sub_cancel]
  rw [if_pos]
  · by_cases hlong : 1000000000 ≤ t.nano
    · have hsecond : s % 60 + 1 = 60 := by rw [hminute hlong]
      simp only [hlong, if_true, hsecond, beq_self_eq_true]
      exact (congr (congrArg of? (by omega)) (Nat.sub_add_cancel hlong)).trans hthere
    · have hsecond : (s % 60 == 60) = false := by
        rw [beq_eq_false_iff_ne]
        omega
      simp only [hlong, if_false, Nat.add_zero, hsecond, Bool.false_eq_true]
      exact (congr (congrArg of? (by omega)) rfl).trans hthere
  · refine ⟨hyears.1, hyears.2, by omega, by omega, by omega, hday, by omega, by omega, ?_, ?_, by decide, by decide⟩
    · split <;> omega
    · split <;> omega

/-- What a field of a date and time may be. -/
theorem civil_fields (t : Instant) :
    t.civil.month ≤ 12 ∧ t.civil.day ≤ 31 ∧ t.civil.hour < 24 ∧ t.civil.minute < 60 ∧ t.civil.second ≤ 60 ∧
      t.civil.nano < 1000000000 := by
  have hthere := t.ofCivil?_civil
  unfold ofCivil? at hthere
  simp only at hthere
  split at hthere
  · rename_i h
    obtain ⟨-, -, -, hmonth, -, hday, hhour, hminute, hsecond, hnano, -, -⟩ := h
    have hlength : (monthLengths t.civil.year).getD (t.civil.month - 1) 0 ≤ 31 := by
      rw [List.getD_eq_getElem?_getD]
      cases hl : (monthLengths t.civil.year)[t.civil.month - 1]? with
      | none => exact Nat.zero_le 31
      | some l => exact monthLengths_le _ l (List.mem_of_getElem? hl)
    exact ⟨hmonth, Nat.le_trans hday hlength, hhour, hminute, hsecond, hnano⟩
  · cases hthere

end Instant
end DeviceEvents
