import DeviceEvents.Instant.Reading
import DeviceEvents.Proofs.Instant.Calendar
/-
  DeviceEvents.Proofs.Instant.DateText — the texts of RFC 3339 that name an instant in UTC.

  There is more than one text of an instant: `T`, `t` or a space stands before the time, the
  fraction may be left out where it is zero and has as many digits as the writer likes, and
  UTC is `Z`, `z` or an offset of no hours and no minutes, with either sign (`NamedBy`). The
  text that instants are written with is one of them (`namedBy_text`).

  The strict rule reads each of them as the instant (`ofStrict?_namedBy`): fields of fixed
  width are read as what was written (`number_padded`), the digits of the fraction up to the
  ninth are the nanoseconds (`fraction_digits`), and the date leads back to the instant.
-/

namespace DeviceEvents.Instant

open Numeral (digit? digits ofDigits)
open Binary64 (digitsOf)

/-! ## Texts of an instant -/

/-- Digits of the fraction: nine of them, of which zeros at the end may be missing, or more
zeros behind them. -/
def IsFraction (nano : Nat) (ds : List Char) : Prop :=
  ds ≠ [] ∧ ∃ missing more, ds ++ List.replicate missing '0' = padded 9 nano ++ List.replicate more '0'

/-- How a time of day ends: a point and digits, or no point on a whole second. -/
inductive FractionText (nano : Nat) : List Char → Prop where
  | whole (h : nano = 0) : FractionText nano []
  | point {ds : List Char} (h : IsFraction nano ds) : FractionText nano ('.' :: ds)

inductive UtcText : List Char → Prop where
  | upper : UtcText ['Z']
  | lower : UtcText ['z']
  | ahead : UtcText ['+', '0', '0', ':', '0', '0']
  | behind : UtcText ['-', '0', '0', ':', '0', '0']

def dateChars (c : Civil) : List Char := padded 4 c.year.toNat ++ '-' :: (padded 2 c.month ++ '-' :: padded 2 c.day)

def timeChars (c : Civil) : List Char := padded 2 c.hour ++ ':' :: (padded 2 c.minute ++ ':' :: padded 2 c.second)

/-- The text names the instant. -/
structure NamedBy (t : Instant) (s : String) : Prop where
  year : 0 ≤ t.civil.year ∧ t.civil.year ≤ 9999
  text : ∃ between fraction zone, (between = 'T' ∨ between = 't' ∨ between = ' ') ∧
    FractionText t.civil.nano fraction ∧ UtcText zone ∧
    s.toList = dateChars t.civil ++ between :: (timeChars t.civil ++ (fraction ++ zone))

/-! ## Digits -/

/-- What a digit stands for. -/
def figure (c : Char) : Nat := c.toNat - '0'.toNat

theorem digit?_of_isDigit {c : Char} (h : c.isDigit = true) : digit? c = some (figure c) := by
  simp only [Char.isDigit, Bool.and_eq_true, decide_eq_true_eq] at h
  exact if_pos h

/-- A run of digits is taken whole where no digit follows it. -/
theorem digits_front {ds rest : List Char} (hds : ∀ c ∈ ds, c.isDigit = true)
    (hrest : ∀ c ∈ rest.head?, digit? c = none) : digits (ds ++ rest) = (ds.map figure, rest) := by
  induction ds with
  | nil =>
    cases rest with
    | nil => rfl
    | cons c rest => simp [digits, hrest c rfl]
  | cons c ds ih =>
    have hc := digit?_of_isDigit (hds c (List.mem_cons_self ..))
    have hrun := ih fun d hd => hds d (List.mem_cons_of_mem _ hd)
    simp [digits, hc, hrun]

theorem digits_run {ds : List Char} (hds : ∀ c ∈ ds, c.isDigit = true) : digits ds = (ds.map figure, []) := by
  have hrun : digits (ds ++ []) = (ds.map figure, []) := digits_front hds fun c hc => nomatch hc
  rwa [List.append_nil] at hrun

theorem ofDigits_figures (ds : List Char) : ofDigits (ds.map figure) = Nat.ofDigitChars 10 ds 0 := by
  rw [ofDigits, List.foldl_map, Nat.ofDigitChars]
  congr 1
  funext n c
  rw [Nat.mul_comm, figure]

theorem padded_digits (width n : Nat) : ∀ c ∈ padded width n, c.isDigit = true := by
  intro c hc
  rcases List.mem_append.1 hc with hc | hc
  · rw [List.eq_of_mem_replicate hc]
    rfl
  · exact Nat.isDigit_of_mem_toDigits (by decide) (by decide) hc

theorem length_padded {width n : Nat} (hwidth : 0 < width) (h : n < Nat.pow 10 width) :
    (padded width n).length = width := by
  have hshort : (digitsOf n).length ≤ width := (Nat.length_toDigits_le_iff (by decide) hwidth).2 h
  rw [padded, List.length_append, List.length_replicate]
  omega

theorem ofDigitChars_padded (width n : Nat) : Nat.ofDigitChars 10 (padded width n) 0 = n := by
  rw [padded, Nat.ofDigitChars_append, Nat.ofDigitChars_replicate_zero, Nat.mul_zero]
  exact Nat.ofDigitChars_ten_toDigits

/-! ## The parts of a date -/

/-- A field of fixed width is read as the number that was written. -/
theorem number_padded {width n : Nat} (hwidth : 0 < width) (h : n < Nat.pow 10 width) (rest : List Char) :
    number width width (padded width n ++ rest) = some (n, rest) := by
  have hlength := length_padded hwidth h
  have hfront : (padded width n ++ rest).take width = padded width n := List.take_left' hlength
  have hbehind : (padded width n ++ rest).drop width = rest := List.drop_left' hlength
  unfold number
  simp only [hfront, digits_run (padded_digits width n), List.length_map, hlength, Nat.lt_irrefl, if_false, hbehind,
    ofDigits_figures, ofDigitChars_padded]

theorem IsFraction.digits {nano : Nat} {ds : List Char} (h : IsFraction nano ds) : ∀ c ∈ ds, c.isDigit = true := by
  obtain ⟨-, missing, more, heq⟩ := h
  intro c hc
  have hmem : c ∈ padded 9 nano ++ List.replicate more '0' := heq ▸ List.mem_append_left _ hc
  rcases List.mem_append.1 hmem with hmem | hmem
  · exact padded_digits 9 nano c hmem
  · rw [List.eq_of_mem_replicate hmem]
    rfl

/-- Up to the ninth they are the nanoseconds, but for zeros at the end. -/
theorem IsFraction.nine {nano : Nat} {ds : List Char} (h : IsFraction nano ds) (hnano : nano < 1000000000) :
    ds.take 9 ++ List.replicate (9 - (ds.take 9).length) '0' = padded 9 nano := by
  obtain ⟨-, missing, more, heq⟩ := h
  have hlength : (padded 9 nano).length = 9 := length_padded (by decide) hnano
  have hfirst := congrArg (List.take 9) heq
  rw [List.take_left' hlength, List.take_append, List.take_replicate] at hfirst
  have hzeros : min (9 - ds.length) missing = 9 - (ds.take 9).length := by
    have hcount := congrArg List.length hfirst
    rw [hlength, List.length_append, List.length_replicate] at hcount
    omega
  rwa [hzeros] at hfirst

theorem fraction_digits {nano : Nat} (hnano : nano < 1000000000) {ds : List Char} (h : IsFraction nano ds)
    {rest : List Char} (hrest : ∀ c ∈ rest.head?, digit? c = none) :
    fraction ('.' :: (ds ++ rest)) = some (nano, rest) := by
  have hdigits := h.digits
  have hfirst : digits ((ds ++ rest).take 9) = ((ds.take 9).map figure, rest.take (9 - ds.length)) := by
    rw [List.take_append]
    refine digits_front (fun c hc => hdigits c (List.mem_of_mem_take hc)) ?_
    intro c hc
    rw [List.head?_take] at hc
    split at hc
    · cases hc
    · exact hrest c hc
  have hbehind : (ds ++ rest).drop (ds.take 9).length = ds.drop (ds.take 9).length ++ rest :=
    List.drop_append_of_le_length (List.length_take_le' 9 ds)
  have hothers : digits (ds.drop (ds.take 9).length ++ rest) = ((ds.drop (ds.take 9).length).map figure, rest) :=
    digits_front (fun c hc => hdigits c (List.mem_of_mem_drop hc)) hrest
  have hvalue : ofDigits ((ds.take 9).map figure) * Nat.pow 10 (9 - (ds.take 9).length) = nano := by
    have hnine := congrArg (fun cs => Nat.ofDigitChars 10 cs 0) (h.nine hnano)
    simp only [Nat.ofDigitChars_append, Nat.ofDigitChars_replicate_zero, ofDigitChars_padded] at hnine
    rw [ofDigits_figures, Nat.mul_comm]
    exact hnine
  have hsome : ((ds.take 9).map figure).isEmpty = false := by
    have hne := h.1
    cases ds with
    | nil => exact absurd rfl hne
    | cons c ds => rfl
  unfold fraction
  simp only [hfirst, hsome, List.length_map, hbehind, hothers, hvalue, Bool.false_eq_true, if_false, List.drop_left]

theorem UtcText.front {zone : List Char} (h : UtcText zone) : ∀ c ∈ zone.head?, digit? c = none := by
  intro c hc
  cases h <;> cases hc <;> decide

theorem UtcText.offset {zone : List Char} (h : UtcText zone) : offset (expect ':') zone = some (0, []) := by
  cases h <;> decide

theorem FractionText.read {nano : Nat} (hnano : nano < 1000000000) {cs zone : List Char} (h : FractionText nano cs)
    (hzone : UtcText zone) : fraction (cs ++ zone) = some (nano, zone) := by
  cases h with
  | whole h =>
    rw [h, List.nil_append]
    cases hzone <;> simp [fraction]
  | point h => exact fraction_digits hnano h hzone.front

/-! ## The whole text -/

theorem ofStrict?_namedBy {t : Instant} {s : String} (h : t.NamedBy s) : ofStrict? s = some t := by
  obtain ⟨between, fraction, zone, hbetween, hfraction, hzone, htext⟩ := h.text
  obtain ⟨hmonth, hday, hhour, hminute, hsecond, hnano⟩ := t.civil_fields
  have hyear : (t.civil.year.toNat : Int) = t.civil.year := Int.toNat_of_nonneg h.year.1
  have hfour (rest : List Char) : number 4 4 (padded 4 t.civil.year.toNat ++ rest) = some (t.civil.year.toNat, rest) := by
    have hlast := h.year.2
    apply number_padded (by decide)
    show _ < 10000
    omega
  have htwo {n : Nat} (hn : n < 100) (rest : List Char) : number 2 2 (padded 2 n ++ rest) = some (n, rest) :=
    number_padded (by decide) hn rest
  have hmonths := htwo (show t.civil.month < 100 by omega)
  have hdays := htwo (show t.civil.day < 100 by omega)
  have hhours := htwo (show t.civil.hour < 100 by omega)
  have hminutes := htwo (show t.civil.minute < 100 by omega)
  have hseconds := htwo (show t.civil.second < 100 by omega)
  have hmark (c : Char) (rest : List Char) : expect c (c :: rest) = some rest := if_pos rfl
  have hseparator (rest : List Char) : separator (between :: rest) = some rest := if_pos hbetween
  -- Every part takes what was written for it and leaves the parts behind it.
  unfold ofStrict?
  rw [htext]
  simp only [dateChars, timeChars, List.append_assoc, List.cons_append, Option.bind_eq_bind, Option.bind_some, hfour,
    hmonths, hdays, hhours, hminutes, hseconds, hmark, hseparator, hfraction.read hnano hzone, hzone.offset,
    List.isEmpty_nil, if_true, hyear]
  exact t.ofCivil?_civil

/-! ## The text that instants are written with -/

theorem digitsOf_tenfold {n : Nat} (h : 0 < n) (k : Nat) :
    digitsOf (Nat.pow 10 k * n) = digitsOf n ++ List.replicate k '0' := by
  induction k with
  | zero => simp [digitsOf]
  | succ k ih =>
    have hpos : 0 < Nat.pow 10 k * n := Nat.mul_pos (Nat.pow_pos (by decide)) h
    have hlast := Nat.toDigits_append_toDigits (b := 10) (by decide) hpos (by decide : 0 < 10)
    have hten : Nat.pow 10 (k + 1) * n = 10 * (Nat.pow 10 k * n) + 0 := by
      show Nat.pow 10 k * 10 * n = _
      rw [Nat.mul_comm (Nat.pow 10 k) 10, Nat.mul_assoc, Nat.add_zero]
    rw [hten, List.replicate_succ', ← List.append_assoc, ← ih]
    exact hlast.symm

/-- Nanoseconds without the zeros at the end. -/
theorem isFraction_padded {width k n : Nat} (hwidth : 0 < width) (hnine : width + k = 9) (hn : 0 < n)
    (hlast : n < Nat.pow 10 width) : IsFraction (Nat.pow 10 k * n) (padded width n) := by
  have hlength := length_padded hwidth hlast
  refine ⟨?_, k, 0, ?_⟩
  · intro hnil
    rw [hnil] at hlength
    exact absurd hlength (Nat.ne_of_lt hwidth)
  · have hshort : (digitsOf n).length ≤ width := (Nat.length_toDigits_le_iff (by decide) hwidth).2 hlast
    have hzeros : width - (digitsOf n).length = 9 - (digitsOf n ++ List.replicate k '0').length := by
      rw [List.length_append, List.length_replicate]
      omega
    rw [padded, padded, digitsOf_tenfold hn, ← hzeros, List.append_assoc, List.replicate_zero, List.append_nil]

theorem fractionText_fractionChars {nano : Nat} (h : nano < 1000000000) : FractionText nano (fractionChars nano) := by
  unfold fractionChars
  by_cases hzero : nano = 0
  · rw [if_pos hzero]
    exact .whole hzero
  rw [if_neg hzero]
  by_cases hmilli : nano % 1000000 = 0
  · have hnano : Nat.pow 10 6 * (nano / 1000000) = nano := Nat.mul_div_cancel' (Nat.dvd_of_mod_eq_zero hmilli)
    have hfraction : IsFraction (Nat.pow 10 6 * (nano / 1000000)) (padded 3 (nano / 1000000)) :=
      isFraction_padded (by decide) rfl (by omega) (show _ < 1000 by omega)
    rw [if_pos hmilli]
    rw [hnano] at hfraction
    exact .point hfraction
  rw [if_neg hmilli]
  by_cases hmicro : nano % 1000 = 0
  · have hnano : Nat.pow 10 3 * (nano / 1000) = nano := Nat.mul_div_cancel' (Nat.dvd_of_mod_eq_zero hmicro)
    have hfraction : IsFraction (Nat.pow 10 3 * (nano / 1000)) (padded 6 (nano / 1000)) :=
      isFraction_padded (by decide) rfl (by omega) (show _ < 1000000 by omega)
    rw [if_pos hmicro]
    rw [hnano] at hfraction
    exact .point hfraction
  · have hfraction : IsFraction (Nat.pow 10 0 * nano) (padded 9 nano) :=
      isFraction_padded (by decide) rfl (by omega) h
    rw [if_neg hmicro]
    rw [show Nat.pow 10 0 * nano = nano from Nat.one_mul nano] at hfraction
    exact .point hfraction

theorem namedBy_text {t : Instant} (h : 0 ≤ t.civil.year ∧ t.civil.year ≤ 9999) : t.NamedBy t.text := by
  obtain ⟨-, -, -, -, -, hnano⟩ := t.civil_fields
  refine ⟨h, 'T', fractionChars t.civil.nano, ['Z'], .inl rfl, fractionText_fractionChars hnano, .upper, ?_⟩
  rw [text, String.toList_ofList, chars, yearChars, if_pos h]
  simp [dateChars, timeChars]

end DeviceEvents.Instant
