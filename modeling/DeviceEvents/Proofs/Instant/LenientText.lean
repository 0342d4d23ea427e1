import DeviceEvents.Proofs.Instant.DateText
/-
  DeviceEvents.Proofs.Instant.LenientText — written dates under the lenient rule.

  Dates outside the years 0 to 9999 are written with a sign, which the strict rule does not take. The
  lenient rule takes it, and reads the text of every instant back (`ofLenient?_text`): all that is
  written is followed by something else than a digit, so a field ends where its digits do. It follows
  that no two instants are written alike (`text_injective`).
-/

namespace DeviceEvents.Instant

open Numeral (digit? digits ofDigits)
open Text (isBlank trimStart)

/-! ## Fields of any width -/

theorem number_front {least most : Nat} {ds rest : List Char} (hds : ∀ c ∈ ds, c.isDigit = true)
    (hrest : ∀ c ∈ rest.head?, digit? c = none) (hleast : least ≤ ds.length) (hmost : ds.length ≤ most) :
    number least most (ds ++ rest) = some (Nat.ofDigitChars 10 ds 0, rest) := by
  have hfirst : digits ((ds ++ rest).take most) = (ds.map figure, rest.take (most - ds.length)) := by
    rw [List.take_append, List.take_of_length_le hmost]
    refine digits_front hds fun c hc => ?_
    rw [List.head?_take] at hc
    split at hc
    · cases hc
    · exact hrest c hc
  unfold number
  simp only [hfirst, List.length_map, if_neg (Nat.not_lt.2 hleast), ofDigits_figures, List.drop_left]

theorem trimStart_cons {c : Char} (hc : isBlank c = false) (cs : List Char) : trimStart (c :: cs) = c :: cs :=
  List.dropWhile_cons_of_neg (by rw [hc]; exact Bool.false_ne_true)

theorem not_blank_of_isDigit {c : Char} (h : c.isDigit = true) : isBlank c = false := by
  simp only [Char.isDigit, Bool.and_eq_true, decide_eq_true_eq] at h
  have hlow : 48 ≤ c.toNat := h.1
  have hhigh : c.toNat ≤ 57 := h.2
  simp [isBlank]
  omega

/-- A padded number begins with a digit. -/
theorem padded_front (width n : Nat) : ∃ c ds, padded width n = c :: ds ∧ c.isDigit = true := by
  have hdigits := padded_digits width n
  cases hds : padded width n with
  | nil =>
    have hlength := congrArg List.length hds
    rw [padded, List.length_append, List.length_nil] at hlength
    exact absurd (List.length_eq_zero_iff.1 (Nat.eq_zero_of_add_eq_zero_left hlength)) Nat.toDigits_ne_nil
  | cons c ds =>
    rw [hds] at hdigits
    exact ⟨c, ds, rfl, hdigits c List.mem_cons_self⟩

theorem trimStart_padded (width n : Nat) (rest : List Char) : trimStart (padded width n ++ rest) = padded width n ++ rest := by
  obtain ⟨c, ds, hds, hc⟩ := padded_front width n
  rw [hds, List.cons_append]
  exact trimStart_cons (not_blank_of_isDigit hc) _

/-! ## The parts of a date -/

variable {rest : List Char}

theorem fieldLenient_padded {n : Nat} (h : n < 100) (hrest : ∀ c ∈ rest.head?, digit? c = none) :
    fieldLenient (padded 2 n ++ rest) = some (n, rest) := by
  have hlength : (padded 2 n).length = 2 := length_padded (by decide) h
  rw [fieldLenient, trimStart_padded, number_front (padded_digits 2 n) hrest (by omega) (by omega), ofDigitChars_padded]

theorem yearLenient_yearChars (y : Int) (hrest : ∀ c ∈ rest.head?, digit? c = none) :
    yearLenient (yearChars y ++ rest) = some (y, rest) := by
  have hvalue (n : Nat) := ofDigitChars_padded 4 n
  -- behind a sign as many digits are read as there are
  have hsigned (n : Nat) : number 1 (padded 4 n ++ rest).length (padded 4 n ++ rest) = some (n, rest) := by
    obtain ⟨c, ds, hds, -⟩ := padded_front 4 n
    rw [number_front (padded_digits 4 n) hrest (by rw [hds]; simp) (by simp), hvalue]
  unfold yearChars
  split
  · rename_i h
    have hlength : (padded 4 y.toNat).length = 4 := length_padded (by decide) (show _ < 10000 by omega)
    have hfour : number 1 4 (padded 4 y.toNat ++ rest) = some (y.toNat, rest) := by
      rw [number_front (padded_digits 4 _) hrest (by omega) (by omega), hvalue]
    obtain ⟨c, ds, hds, hc⟩ := padded_front 4 y.toNat
    unfold yearLenient
    rw [trimStart_padded]
    rw [hds, List.cons_append] at hfour ⊢
    split
    · rename_i he
      cases he
      cases hc
    · rename_i he
      cases he
      cases hc
    · rw [hfour]
      simp only [Option.bind_eq_bind, Option.bind_some, Int.toNat_of_nonneg h.1, pure]
  · rename_i h
    unfold yearLenient
    by_cases hneg : y < 0
    · rw [if_pos hneg, List.cons_append, trimStart_cons (by decide)]
      simp only [hsigned, Option.bind_eq_bind, Option.bind_some, pure]
      rw [show -(y.natAbs : Int) = y by omega]
    · rw [if_neg hneg, List.cons_append, trimStart_cons (by decide)]
      simp only [hsigned, Option.bind_eq_bind, Option.bind_some, pure]
      rw [show (y.natAbs : Int) = y by omega]

/-! ## The whole text -/

theorem FractionText.front {nano : Nat} {fraction zone : List Char} (h : FractionText nano fraction) (hzone : UtcText zone) :
    ∀ c ∈ (fraction ++ zone).head?, digit? c = none := by
  cases h with
  | whole => exact hzone.front
  | point =>
    intro c hc
    cases hc
    rfl

theorem ofLenient?_text (t : Instant) : ofLenient? t.text = some t := by
  obtain ⟨hmonth, hday, hhour, hminute, hsecond, hnano⟩ := t.civil_fields
  have hfraction := fractionText_fractionChars hnano
  have hyear (rest : List Char) : yearLenient (yearChars t.civil.year ++ '-' :: rest) = some (t.civil.year, '-' :: rest) :=
    yearLenient_yearChars _ (by simp; decide)
  have hmark {c : Char} (hc : isBlank c = false) (rest : List Char) : markLenient c (c :: rest) = some rest := by
    rw [markLenient, trimStart_cons hc]
    exact if_pos rfl
  have hdash := hmark (c := '-') (by decide)
  have hcolon := hmark (c := ':') (by decide)
  -- a field that some sign follows
  have hfield {n : Nat} (hn : n < 100) {c : Char} (hc : digit? c = none) (rest : List Char) :
      fieldLenient (padded 2 n ++ c :: rest) = some (n, c :: rest) :=
    fieldLenient_padded hn fun d hd => by cases hd; exact hc
  have hmonths := hfield (show t.civil.month < 100 by omega) (c := '-') rfl
  have hdays := hfield (show t.civil.day < 100 by omega) (c := 'T') rfl
  have hhours := hfield (show t.civil.hour < 100 by omega) (c := ':') rfl
  have hminutes := hfield (show t.civil.minute < 100 by omega) (c := ':') rfl
  have hseconds := fieldLenient_padded (show t.civil.second < 100 by omega) (hfraction.front .upper)
  have hseparator (rest : List Char) : separator ('T' :: rest) = some rest := rfl
  have hzone : offsetLenient ['Z'] = some (0, []) := rfl
  unfold ofLenient?
  rw [text, String.toList_ofList, chars]
  simp only [List.append_assoc, List.cons_append, List.nil_append, Option.bind_eq_bind, Option.bind_some, hyear, hdash,
    hcolon, hmonths, hdays, hhours, hminutes, hseconds, hseparator, hfraction.read hnano .upper, hzone]
  exact t.ofCivil?_civil

/-- No two instants are written alike. -/
theorem text_injective {t u : Instant} (h : t.text = u.text) : t = u := by
  have hread := ofLenient?_text t
  rw [h, ofLenient?_text u] at hread
  exact (Option.some.inj hread).symm

end DeviceEvents.Instant
