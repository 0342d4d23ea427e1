import DeviceEvents.Proofs.Instant.DateText
import DeviceEvents.Proofs.Json.Scanning
import DeviceEvents.Proofs.Number.Rounding
/-
  DeviceEvents.Proofs.Number.Printing — the text of a number is the text of no other.

  What is written for a finite double is a numeral again: `lay_spells` goes through the ways
  in which digits are laid out, with zeros behind them, with a point among or before them, or
  with an exponent, and finds in each the number that the digits stood for. Read back exactly,
  the numeral has the sign of the double and a magnitude that is rounded to it (`read_text`).
  As no number is rounded to two doubles, their texts differ (`text_injective`); signed zeros
  differ by their signs.

  This does not go through `Numeral.toNumber?`, which rounds twice on its way and may miss.
-/

namespace DeviceEvents

open Binary64 (digitsOf Takes)
open Instant (figure digits_front digits_run ofDigits_figures digit?_of_isDigit)

namespace Numeral

/-- The number that is written, without its sign. -/
def magnitude (n : Numeral) : ℚ := ofDigits (n.whole ++ n.fraction) * 10 ^ (n.exponent - n.fraction.length)

/-! ## Spelling -/

/-- A single zero, or digits that do not begin with zero. -/
structure IsWhole (w : List Char) : Prop where
  digits : ∀ c ∈ w, c.isDigit = true
  front : w = ['0'] ∨ ∃ c ds, w = c :: ds ∧ c ≠ '0'

inductive PowerText : Int → List Char → Prop where
  | absent : PowerText 0 []
  | ahead (n : Nat) : PowerText n ('e' :: '+' :: digitsOf n)
  | behind (n : Nat) : PowerText (-n) ('e' :: '-' :: digitsOf n)

/-- Digits behind a point, if there are any. -/
def pointed (ds : List Char) : List Char := if ds.isEmpty then [] else '.' :: ds

/-- The text spells the number, which has no sign. -/
def Spells (v : ℚ) (cs : List Char) : Prop :=
  ∃ w ds e power, cs = w ++ (pointed ds ++ power) ∧ IsWhole w ∧ (∀ c ∈ ds, c.isDigit = true) ∧ PowerText e power ∧
    v = Nat.ofDigitChars 10 (w ++ ds) 0 * 10 ^ (e - ds.length)

def signChars (negative : Bool) : List Char := if negative then ['-'] else []

theorem digitsOf_digits (n : Nat) : ∀ c ∈ digitsOf n, c.isDigit = true :=
  fun _ => Nat.isDigit_of_mem_toDigits (by decide) (by decide)

theorem zero_digits : ∀ c ∈ ['0'], c.isDigit = true := by
  intro c hc
  rw [List.mem_singleton.1 hc]
  rfl

theorem digitsOf_ne_nil (n : Nat) : digitsOf n ≠ [] := Nat.toDigits_ne_nil

/-! ## Reading what is spelled -/

theorem PowerText.front {e : Int} {power : List Char} (h : PowerText e power) : ∀ c ∈ power.head?, digit? c = none := by
  intro c hc
  cases h with
  | absent => cases hc
  | ahead n =>
    cases hc
    rfl
  | behind n =>
    cases hc
    rfl

theorem pointed_front (ds : List Char) {power : List Char} (h : ∀ c ∈ power.head?, digit? c = none) :
    ∀ c ∈ (pointed ds ++ power).head?, digit? c = none := by
  cases ds with
  | nil => exact h
  | cons d ds =>
    intro c hc
    cases hc
    rfl

theorem figure_ne_zero {c : Char} (hc : c.isDigit = true) (hne : c ≠ '0') : figure c ≠ 0 := by
  intro h
  simp only [Char.isDigit, Bool.and_eq_true, decide_eq_true_eq] at hc
  have hlow : 48 ≤ c.toNat := hc.1
  have hzero : c.toNat = 48 := by
    have hsub : c.toNat - 48 = 0 := h
    omega
  exact hne (Char.ext (UInt32.toNat_inj.1 hzero))

theorem readWhole_front {w rest : List Char} (hw : IsWhole w) (hrest : ∀ c ∈ rest.head?, digit? c = none) :
    readWhole (w ++ rest) = some (w.map figure, rest) := by
  have hdigits := digits_front hw.digits hrest
  unfold readWhole
  rw [hdigits]
  rcases hw.front with rfl | ⟨c, ds, rfl, hne⟩
  · rfl
  · have hc := figure_ne_zero (hw.digits c (List.mem_cons_self ..)) hne
    rw [List.map_cons]
    generalize figure c = d at hc
    generalize ds.map figure = ds
    cases d with
    | zero => exact absurd rfl hc
    | succ d => rfl

theorem readFraction_front {ds power : List Char} (hds : ∀ c ∈ ds, c.isDigit = true)
    {e : Int} (hpower : PowerText e power) :
    ∃ fraction, readFraction (pointed ds ++ power) = some (fraction, power) ∧ fraction.getD [] = ds.map figure := by
  cases ds with
  | nil =>
    refine ⟨none, ?_, rfl⟩
    show readFraction power = some (none, power)
    cases hpower <;> rfl
  | cons d ds =>
    refine ⟨some ((d :: ds).map figure), ?_, rfl⟩
    have hdigits := digits_front hds hpower.front
    show readFraction ('.' :: (d :: ds ++ power)) = _
    unfold readFraction
    simp only [hdigits, List.map_cons]

theorem readExponent_text {e : Int} {power : List Char} (h : PowerText e power) :
    ∃ exponent, readExponent power = some (exponent, []) ∧ exponent.getD 0 = e := by
  have hrun (n : Nat) := digits_run (digitsOf_digits n)
  have hvalue (n : Nat) : ofDigits ((digitsOf n).map figure) = n := by
    rw [ofDigits_figures]
    exact Nat.ofDigitChars_ten_toDigits
  have hne (n : Nat) : (digitsOf n).map figure ≠ [] := by
    rw [ne_eq, List.map_eq_nil_iff]
    exact digitsOf_ne_nil n
  cases h with
  | absent => exact ⟨none, rfl, rfl⟩
  | ahead n =>
    refine ⟨some n, ?_, rfl⟩
    have hnumber := hvalue n
    have hsome := hne n
    unfold readExponent
    simp only [true_or, if_true, hrun]
    generalize (digitsOf n).map figure = ds at *
    cases ds with
    | nil => exact absurd rfl hsome
    | cons d ds => simp only [hnumber, Bool.false_eq_true, if_false]
  | behind n =>
    refine ⟨some (-n), ?_, rfl⟩
    have hnumber := hvalue n
    have hsome := hne n
    unfold readExponent
    simp only [true_or, if_true, hrun]
    generalize (digitsOf n).map figure = ds at *
    cases ds with
    | nil => exact absurd rfl hsome
    | cons d ds => simp only [hnumber]

/-- What is spelled behind a sign is read as a numeral of that sign and magnitude. -/
theorem Spells.read {v : ℚ} {cs : List Char} (h : Spells v cs) (negative : Bool) :
    ∃ n, Numeral.read (signChars negative ++ cs) = some (n, []) ∧ n.negative = negative ∧ n.magnitude = v := by
  obtain ⟨w, ds, e, power, rfl, hw, hds, hpower, hv⟩ := h
  have hwhole := readWhole_front hw (pointed_front ds hpower.front)
  obtain ⟨fraction, hfraction, hfigures⟩ := readFraction_front hds hpower
  obtain ⟨exponent, hexponent, he⟩ := readExponent_text hpower
  have hmagnitude : ofDigits (w.map figure ++ ds.map figure) * (10 : ℚ) ^ (e - (ds.map figure).length) = v := by
    rw [← List.map_append, ofDigits_figures, List.length_map, hv]
  refine ⟨⟨negative, w.map figure, ds.map figure, fraction.isSome || exponent.isSome, e⟩, ?_, rfl, hmagnitude⟩
  unfold Numeral.read
  split
  rename_i sign cs hsign
  have hparts : sign = negative ∧ cs = w ++ (pointed ds ++ power) := by
    cases negative with
    | false =>
      -- The first character of the digits is no sign.
      rcases hw.front with rfl | ⟨c, r, rfl, -⟩
      · cases hsign
        exact ⟨rfl, rfl⟩
      · have hc := hw.digits c (List.mem_cons_self ..)
        split at hsign
        · rename_i heq
          cases heq
          cases hc
        · cases hsign
          exact ⟨rfl, rfl⟩
    | true =>
      cases hsign
      exact ⟨rfl, rfl⟩
  obtain ⟨rfl, rfl⟩ := hparts
  simp only [hwhole, hfraction, hexponent, hfigures, he, Option.bind_eq_bind, Option.bind_some, Option.pure_def]

end Numeral

namespace Binary64

open Numeral (IsWhole PowerText Spells pointed signChars digitsOf_digits)

/-! ## Digits -/

theorem digitsOf_front {n : Nat} (h : 0 < n) : ∃ c ds, digitsOf n = c :: ds ∧ c ≠ '0' := by
  induction n using Nat.strongRecOn with
  | ind n ih =>
    by_cases hshort : n < 10
    · refine ⟨n.digitChar, [], Nat.toDigits_of_lt_base hshort, ?_⟩
      have hdigit : ∀ n < 10, 0 < n → n.digitChar ≠ '0' := by decide
      exact hdigit n hshort h
    · obtain ⟨c, ds, hfront, hne⟩ := ih (n / 10) (by omega) (by omega)
      refine ⟨c, ds ++ [(n % 10).digitChar], ?_, hne⟩
      rw [digitsOf, Nat.toDigits_of_base_le (by decide) (by omega)]
      rw [digitsOf] at hfront
      rw [hfront, List.cons_append]

theorem trimZeros_append (ds : List Char) : ∃ n, ds = trimZeros ds ++ List.replicate n '0' := by
  have hzeros : ∀ c ∈ (ds.reverse.takeWhile (· == '0')).reverse, c = '0' := fun c hc => by
    have hall := List.all_eq_true.1 List.all_takeWhile c (List.mem_reverse.1 hc)
    exact beq_iff_eq.1 hall
  have hsplit := congrArg List.reverse (List.takeWhile_append_dropWhile (p := (· == '0')) (l := ds.reverse))
  rw [List.reverse_append, List.reverse_reverse, List.eq_replicate_of_mem hzeros] at hsplit
  exact ⟨_, hsplit.symm⟩

theorem ofDigitChars_zeros_behind (ds : List Char) (n : Nat) :
    Nat.ofDigitChars 10 (ds ++ List.replicate n '0') 0 = 10 ^ n * Nat.ofDigitChars 10 ds 0 := by
  rw [Nat.ofDigitChars_append, Nat.ofDigitChars_replicate_zero]

/-! ## Layouts -/

section

variable {ds : List Char}

theorem zeros_digits (n : Nat) : ∀ c ∈ List.replicate n '0', c.isDigit = true := by
  intro c hc
  rw [List.eq_of_mem_replicate hc]
  rfl

/-- A whole number, with zeros up to the point. -/
theorem spells_whole (hds : ∀ c ∈ ds, c.isDigit = true) (hfront : ∃ c r, ds = c :: r ∧ c ≠ '0') (n : Nat) :
    Spells (Nat.ofDigitChars 10 ds 0 * 10 ^ (n : Int)) (ds ++ List.replicate n '0' ++ ['.', '0']) := by
  refine ⟨ds ++ List.replicate n '0', ['0'], 0, [], by simp [pointed], ⟨?_, ?_⟩, Numeral.zero_digits, .absent, ?_⟩
  · intro c hc
    exact (List.mem_append.1 hc).elim (hds c) (zeros_digits n c)
  · obtain ⟨c, r, rfl, hne⟩ := hfront
    exact .inr ⟨c, r ++ List.replicate n '0', rfl, hne⟩
  · have hvalue : Nat.ofDigitChars 10 (ds ++ List.replicate n '0' ++ ['0']) 0 =
        10 ^ 1 * (10 ^ n * Nat.ofDigitChars 10 ds 0) := by
      rw [← ofDigitChars_zeros_behind ds, ← ofDigitChars_zeros_behind _ 1]
      rfl
    rw [hvalue, show (0 : Int) - (['0'].length : Nat) = -1 from rfl, zpow_neg_one, zpow_natCast]
    push_cast
    ring

/-- The point stands among the digits. -/
theorem spells_amid (hds : ∀ c ∈ ds, c.isDigit = true) (hfront : ∃ c r, ds = c :: r ∧ c ≠ '0') {n : Nat} (hpos : 0 < n)
    (hlt : n < ds.length) :
    Spells (Nat.ofDigitChars 10 ds 0 * 10 ^ ((n : Int) - ds.length)) (ds.take n ++ ['.'] ++ ds.drop n) := by
  have hdrop : (ds.drop n).length = ds.length - n := List.length_drop ..
  refine ⟨ds.take n, ds.drop n, 0, [], ?_, ⟨?_, ?_⟩, ?_, .absent, ?_⟩
  · have hsome : (ds.drop n).isEmpty = false := by
      rw [List.isEmpty_eq_false_iff, ← List.length_pos_iff]
      omega
    simp [pointed, hsome]
  · intro c hc
    exact hds c (List.mem_of_mem_take hc)
  · obtain ⟨c, r, rfl, hne⟩ := hfront
    obtain ⟨k, rfl⟩ : ∃ k, n = k + 1 := ⟨n - 1, by omega⟩
    exact .inr ⟨c, r.take k, rfl, hne⟩
  · intro c hc
    exact hds c (List.mem_of_mem_drop hc)
  · rw [List.take_append_drop, hdrop, Nat.cast_sub hlt.le]
    congr 2
    omega

/-- The point stands before the digits, with zeros between. -/
theorem spells_small (hds : ∀ c ∈ ds, c.isDigit = true) (hne : ds ≠ []) (n : Nat) :
    Spells (Nat.ofDigitChars 10 ds 0 * 10 ^ (-(n : Int) - ds.length)) (['0', '.'] ++ List.replicate n '0' ++ ds) := by
  refine ⟨['0'], List.replicate n '0' ++ ds, 0, [], ?_, ⟨Numeral.zero_digits, .inl rfl⟩, ?_, .absent, ?_⟩
  · have hsome : (List.replicate n '0' ++ ds).isEmpty = false := by
      rw [List.isEmpty_eq_false_iff]
      exact List.append_ne_nil_of_right_ne_nil _ hne
    simp [pointed, hsome]
  · intro c hc
    exact (List.mem_append.1 hc).elim (zeros_digits n c) (hds c)
  · rw [show ['0'] = List.replicate 1 '0' from rfl, Nat.ofDigitChars_append, Nat.ofDigitChars_replicate_zero,
      Nat.ofDigitChars_append, Nat.ofDigitChars_replicate_zero, List.length_append, List.length_replicate]
    simp only [Nat.mul_zero]
    congr 2
    push_cast
    omega

/-- One digit, the others behind a point, and an exponent. -/
theorem spells_power {c : Char} (hds : ∀ d ∈ c :: ds, d.isDigit = true) (hne : c ≠ '0') {e : Int} {power : List Char}
    (hpower : PowerText e power) :
    Spells (Nat.ofDigitChars 10 (c :: ds) 0 * 10 ^ (e - ds.length)) ([c] ++ pointed ds ++ power) := by
  rw [List.forall_mem_cons] at hds
  refine ⟨[c], ds, e, power, List.append_assoc .., ⟨?_, .inr ⟨c, [], rfl, hne⟩⟩, hds.2, hpower, rfl⟩
  rw [List.forall_mem_singleton]
  exact hds.1

end

/-- Digits laid out around a point spell the number that they stand for there. -/
theorem lay_spells {ds : List Char} (hds : ∀ c ∈ ds, c.isDigit = true) (hfront : ∃ c r, ds = c :: r ∧ c ≠ '0')
    (point : Int) :
    Spells (Nat.ofDigitChars 10 ds 0 * 10 ^ (point - ds.length)) (lay plainLayout ds point) := by
  have hnil : ds ≠ [] := by
    obtain ⟨c, r, rfl, -⟩ := hfront
    exact List.cons_ne_nil c r
  unfold lay
  lift_lets
  intro e head tail fraction power
  split
  · split
    · obtain ⟨n, hn⟩ : ∃ n : Nat, point - ds.length = n := ⟨(point - ds.length).toNat, by omega⟩
      rw [hn, Int.toNat_natCast]
      exact spells_whole hds hfront n
    · split
      · rename_i hlong hpoint
        obtain ⟨n, rfl⟩ := Int.eq_ofNat_of_zero_le hpoint.le
        rw [Int.toNat_natCast]
        exact spells_amid hds hfront (by omega) (by omega)
      · obtain ⟨n, hn⟩ : ∃ n : Nat, point = -(n : Int) := ⟨(-point).toNat, by omega⟩
        rw [hn, Int.neg_neg, Int.toNat_natCast]
        exact spells_small hds hnil n
  · obtain ⟨c, r, rfl, hne⟩ := hfront
    have hpower : PowerText e ('e' :: power) := by
      simp only [power]
      split
      · rename_i he
        obtain ⟨n, hn⟩ := Int.eq_ofNat_of_zero_le he
        rw [hn]
        exact .ahead n
      · rename_i he
        obtain ⟨n, hn⟩ : ∃ n : Nat, e = -(n : Int) := ⟨(-e).toNat, by omega⟩
        rw [hn, Int.neg_neg, Int.toNat_natCast]
        exact .behind n
    have htext : head ++ fraction ++ plainLayout.mark ++ power = [c] ++ pointed r ++ 'e' :: power := by
      simp [head, fraction, tail, pointed, plainLayout]
    have hplace : point - ((c :: r).length : Int) = e - r.length := by
      rw [List.length_cons]
      push_cast
      omega
    rw [htext, hplace]
    exact spells_power hds hne hpower

theorem layDecimal_spells {d : Decimal} (h : 0 < d.digits) :
    Spells (d.digits * 10 ^ d.exponent) (layDecimal plainLayout d) := by
  obtain ⟨n, hn⟩ := trimZeros_append (digitsOf d.digits)
  have hdigits : ∀ c ∈ trimZeros (digitsOf d.digits), c.isDigit = true := fun c hc =>
    digitsOf_digits d.digits c (hn ▸ List.mem_append_left _ hc)
  have hfront : ∃ c r, trimZeros (digitsOf d.digits) = c :: r ∧ c ≠ '0' := by
    obtain ⟨c, r, hcr, hne⟩ := digitsOf_front h
    generalize trimZeros (digitsOf d.digits) = ds at hn
    rw [hcr] at hn
    cases ds with
    | nil =>
      rw [List.nil_append] at hn
      exact absurd (List.eq_of_mem_replicate (hn ▸ List.mem_cons_self ..)) hne
    | cons c' ds =>
      cases hn
      exact ⟨c, ds, rfl, hne⟩
  have hlength := congrArg List.length hn
  have hvalue : d.digits = 10 ^ n * Nat.ofDigitChars 10 (trimZeros (digitsOf d.digits)) 0 := by
    rw [← ofDigitChars_zeros_behind, ← hn]
    exact Nat.ofDigitChars_ten_toDigits.symm
  have hlaid := lay_spells hdigits hfront (d.exponent + (digitsOf d.digits).length)
  rw [List.length_append, List.length_replicate] at hlength
  rw [layDecimal]
  convert hlaid using 1
  rw [show d.exponent + ((digitsOf d.digits).length : Int) - (trimZeros (digitsOf d.digits)).length = n + d.exponent by
    omega, zpow_add₀ (by norm_num), zpow_natCast]
  conv_lhs => rw [hvalue]
  push_cast
  ring

/-! ## Doubles -/

theorem text_spells {x : Binary64} (h : x.isFinite = true) :
    ∃ v cs, x.text plainLayout = signChars x.isNegative ++ cs ∧ Spells v cs ∧ Takes x.mantissa x.exponent v := by
  by_cases hzero : x.mantissa = 0
  · refine ⟨0, ['0', '.', '0'], ?_, ⟨['0'], ['0'], 0, [], rfl, ⟨Numeral.zero_digits, .inl rfl⟩, Numeral.zero_digits, .absent, ?_⟩, ?_⟩
    · simp [text, hzero, signChars, plainLayout]
    · rw [show Nat.ofDigitChars 10 (['0'] ++ ['0']) 0 = 0 from rfl, Nat.cast_zero, zero_mul]
    · rw [hzero]
      exact takes_zero _
  · have hpos : 0 < x.mantissa := Nat.pos_of_ne_zero hzero
    have htakes := takes_shortest (fits h) hpos
    have hdigits : 0 < (shortest x.mantissa x.exponent).digits := by
      refine Nat.pos_of_ne_zero fun hnone => ?_
      rw [hnone, Nat.cast_zero, zero_mul] at htakes
      exact not_takes_zero hpos _ htakes
    refine ⟨_, _, ?_, layDecimal_spells hdigits, htakes⟩
    simp [text, hzero, signChars]

/-- The text of a finite double is read as a numeral of its sign, whose exact magnitude is
rounded to that of the double. -/
theorem read_text {x : Binary64} (h : x.isFinite = true) :
    ∃ n, Numeral.read (x.text plainLayout) = some (n, []) ∧ n.negative = x.isNegative ∧
      Takes x.mantissa x.exponent n.magnitude := by
  obtain ⟨v, cs, htext, hspells, htakes⟩ := text_spells h
  obtain ⟨n, hread, hnegative, hmagnitude⟩ := hspells.read x.isNegative
  refine ⟨n, ?_, hnegative, ?_⟩
  · rw [htext, hread]
  · rw [hmagnitude]
    exact htakes

/-- Finite doubles of one text are one double. -/
theorem text_injective {x y : Binary64} (hx : x.isFinite = true) (hy : y.isFinite = true)
    (h : x.text plainLayout = y.text plainLayout) : x = y := by
  obtain ⟨n, hread, hnegative, htakes⟩ := read_text hx
  obtain ⟨n', hread', hnegative', htakes'⟩ := read_text hy
  rw [h, hread'] at hread
  cases hread
  obtain ⟨hm, hq⟩ := takes_unique (fits hx) (fits hy) htakes htakes'
  exact eq_of_parts hx hy (hnegative.symm.trans hnegative') hm hq

end Binary64

/-! ## Numbers -/

namespace Number

/-- An integer, or a double that is finite. -/
def IsFinite : Number → Prop
  | .int _ => True
  | .real x => x.isFinite = true

theorem text_of_finite {x : Binary64} (h : x.isFinite = true) : (Number.real x).text = x.text Binary64.plainLayout :=
  if_pos h

theorem text_int (i : Int) :
    (Number.int i).text = if i < 0 then '-' :: digitsOf i.natAbs else digitsOf i.natAbs := rfl

theorem text_int_plain (i : Int) : '.' ∉ (Number.int i).text ∧ 'e' ∉ (Number.int i).text := by
  have hdigits (c : Char) (hc : c.isDigit = false) : c ∉ digitsOf i.natAbs := fun hmem => by
    rw [Numeral.digitsOf_digits _ c hmem] at hc
    cases hc
  rw [text_int]
  split
  · simp [hdigits '.' rfl, hdigits 'e' rfl]
  · exact ⟨hdigits '.' rfl, hdigits 'e' rfl⟩

theorem text_int_injective {i j : Int} (h : (Number.int i).text = (Number.int j).text) : i = j := by
  have hdigits {n k : Nat} (hnk : digitsOf n = digitsOf k) : n = k := by
    have hvalue := congrArg (fun ds => Nat.ofDigitChars 10 ds 0) hnk
    simpa [digitsOf, Nat.ofDigitChars_ten_toDigits] using hvalue
  have hsign (n : Nat) (ds : List Char) : digitsOf n ≠ '-' :: ds := fun hn => by
    have hdash := Numeral.digitsOf_digits n '-' (hn ▸ List.mem_cons_self ..)
    cases hdash
  rw [text_int, text_int] at h
  split at h
  · split at h
    · have habs := hdigits (List.cons.inj h).2
      omega
    · exact absurd h.symm (hsign _ _)
  · split at h
    · exact absurd h (hsign _ _)
    · have habs := hdigits h
      omega

/-- Finite numbers of one text are one number: doubles have a point or an exponent. -/
theorem text_injective {n n' : Number} (hn : n.IsFinite) (hn' : n'.IsFinite) (h : n.text = n'.text) : n = n' := by
  have hapart {i : Int} {x : Binary64} (hx : x.isFinite = true) : (Number.int i).text ≠ (Number.real x).text := by
    intro he
    obtain ⟨hpoint, hexponent⟩ := text_int_plain i
    rw [he, text_of_finite hx] at hpoint hexponent
    exact x.text_decimal.elim hpoint hexponent
  cases n with
  | int i =>
    cases n' with
    | int j => exact congrArg _ (text_int_injective h)
    | real y => exact absurd h (hapart hn')
  | real x =>
    cases n' with
    | int j => exact absurd h.symm (hapart hn)
    | real y =>
      rw [text_of_finite hn, text_of_finite hn'] at h
      exact congrArg _ (Binary64.text_injective hn hn' h)

end Number
end DeviceEvents
