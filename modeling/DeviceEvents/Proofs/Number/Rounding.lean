import DeviceEvents.Number.Shortest
import Mathlib.Algebra.Order.Field.Power
import Mathlib.Data.Rat.Cast.Order
import Mathlib.Tactic.FieldSimp
import Mathlib.Tactic.Linarith
import Mathlib.Tactic.Positivity
import Mathlib.Tactic.Ring
/-
  DeviceEvents.Proofs.Number.Rounding — which numbers a double stands for.

  Around every finite double lie the numbers that are rounded to it, up to the midpoints to
  its neighbours (`Takes`). No number lies around two doubles (`takes_unique`): the ends are
  taken by even mantissas only, and of two neighbours one is odd.

  The search for the fewest digits tests its candidates exactly (`readsBack_iff`), and with
  seventeen digits it always finds one: the steps of that grid are narrower than what lies
  around the double (`onGrid?_isSome`). So the decimal that is written for a double lies
  around that double and no other (`takes_shortest`).
-/

namespace DeviceEvents.Binary64

/-! ## Mantissas and exponents -/

/-- Mantissa and exponent of a finite double. -/
structure Fits (m : Nat) (q : Int) : Prop where
  small : m < 0x20000000000000
  least : -1074 ≤ q
  greatest : q ≤ 971
  full : -1074 < q → 0x10000000000000 ≤ m

theorem fits {x : Binary64} (h : x.isFinite = true) : Fits x.mantissa x.exponent := by
  have hfield : x.exponentField ≠ 2047 := by simpa [isFinite] using h
  have hbound : x.exponentField < 2048 := Nat.mod_lt _ (by decide)
  have hfraction : x.fractionField < 0x10000000000000 := Nat.mod_lt _ (by decide)
  unfold mantissa exponent
  by_cases hzero : x.exponentField = 0
  · rw [if_pos hzero, if_pos hzero]
    exact ⟨by omega, by omega, by omega, by omega⟩
  · rw [if_neg hzero, if_neg hzero]
    exact ⟨by omega, by omega, by omega, by omega⟩

/-- A double is its sign, its mantissa and its exponent. -/
theorem eq_of_parts {x y : Binary64} (hx : x.isFinite = true) (hy : y.isFinite = true)
    (hsign : x.isNegative = y.isNegative) (hm : x.mantissa = y.mantissa) (hq : x.exponent = y.exponent) : x = y := by
  have hfx : x.fractionField < 0x10000000000000 := Nat.mod_lt _ (by decide)
  have hfy : y.fractionField < 0x10000000000000 := Nat.mod_lt _ (by decide)
  have hfields : x.exponentField = y.exponentField ∧ x.fractionField = y.fractionField := by
    unfold mantissa at hm
    unfold exponent at hq
    by_cases hzx : x.exponentField = 0 <;> by_cases hzy : y.exponentField = 0 <;>
      simp only [hzx, hzy, if_true, if_false] at hm hq <;> omega
  have hbits : x.bits.toNat = y.bits.toNat := by
    have hbx := x.bits.toNat_lt
    have hby := y.bits.toNat_lt
    have htop : x.bits.toNat / 0x8000000000000000 = y.bits.toNat / 0x8000000000000000 := by
      unfold isNegative at hsign
      rw [Bool.eq_iff_iff, beq_iff_eq, beq_iff_eq] at hsign
      omega
    obtain ⟨he, hf⟩ := hfields
    unfold exponentField at he
    unfold fractionField at hf
    omega
  cases x
  cases y
  exact congrArg _ (UInt64.toNat_inj.1 hbits)

/-! ## What lies around a double -/

theorem two_zpow_pos (q : Int) : (0 : ℚ) < 2 ^ q := zpow_pos (by norm_num) q

theorem ten_zpow_pos (k : Int) : (0 : ℚ) < 10 ^ k := zpow_pos (by norm_num) k

/-- The number `v` is rounded to `m · 2 ^ q`. -/
def Takes (m : Nat) (q : Int) (v : ℚ) : Prop :=
  if m % 2 = 0 then (bounds m q).1 * (2 : ℚ) ^ (q - 2) ≤ v ∧ v ≤ (bounds m q).2 * (2 : ℚ) ^ (q - 2)
  else (bounds m q).1 * (2 : ℚ) ^ (q - 2) < v ∧ v < (bounds m q).2 * (2 : ℚ) ^ (q - 2)

/-- Of two doubles the greater has the greater exponent, or the same and the greater mantissa;
what lies around the one ends where that around the other begins, or before. -/
theorem bounds_apart {m m' : Nat} {q q' : Int} (h : Fits m q) (h' : Fits m' q')
    (hlt : q < q' ∨ (q = q' ∧ m < m')) :
    ((bounds m q).2 : ℚ) * 2 ^ (q - 2) ≤ (bounds m' q').1 * 2 ^ (q' - 2) ∧
      (m % 2 = 0 → m' % 2 = 0 → ((bounds m q).2 : ℚ) * 2 ^ (q - 2) < (bounds m' q').1 * 2 ^ (q' - 2)) := by
  have hsmall := h.small
  have hfull := h.full
  have hleast := h.least
  have hpos := two_zpow_pos (q - 2)
  rcases hlt with hq | ⟨rfl, hm⟩
  · -- The next exponent makes steps twice as wide, at least.
    have hfull' := h'.full (by omega)
    have hle : (bounds m q).2 ≤ 2 * (bounds m' q').1 := by
      unfold bounds
      dsimp only
      split <;> omega
    have hlt : m % 2 = 0 → (bounds m q).2 < 2 * (bounds m' q').1 := by
      intro heven
      unfold bounds
      dsimp only
      split <;> omega
    have htwice : (2 : ℚ) ^ (q - 2) * 2 ≤ 2 ^ (q' - 2) := by
      rw [← zpow_add_one₀ (by norm_num)]
      exact zpow_le_zpow_right₀ (by norm_num) (by omega)
    have hwide : 2 * ((bounds m' q').1 : ℚ) * 2 ^ (q - 2) ≤ (bounds m' q').1 * 2 ^ (q' - 2) := by
      calc 2 * ((bounds m' q').1 : ℚ) * 2 ^ (q - 2) = (bounds m' q').1 * (2 ^ (q - 2) * 2) := by ring
        _ ≤ (bounds m' q').1 * 2 ^ (q' - 2) := by gcongr
    refine ⟨le_trans ?_ hwide, fun heven _ => lt_of_lt_of_le ?_ hwide⟩
    · exact mul_le_mul_of_nonneg_right (by exact_mod_cast hle) hpos.le
    · exact mul_lt_mul_of_pos_right (by exact_mod_cast hlt heven) hpos
  · have hle : (bounds m q).2 ≤ (bounds m' q).1 := by
      unfold bounds
      dsimp only
      split <;> omega
    have hlt : m % 2 = 0 → m' % 2 = 0 → (bounds m q).2 < (bounds m' q).1 := by
      intro heven heven'
      unfold bounds
      dsimp only
      split <;> omega
    refine ⟨?_, fun heven heven' => ?_⟩
    · exact mul_le_mul_of_nonneg_right (by exact_mod_cast hle) hpos.le
    · exact mul_lt_mul_of_pos_right (by exact_mod_cast hlt heven heven') hpos

theorem Takes.bounded {m : Nat} {q : Int} {v : ℚ} (h : Takes m q v) :
    (bounds m q).1 * (2 : ℚ) ^ (q - 2) ≤ v ∧ v ≤ (bounds m q).2 * (2 : ℚ) ^ (q - 2) := by
  unfold Takes at h
  split at h
  · exact h
  · exact ⟨h.1.le, h.2.le⟩

theorem Takes.strict {m : Nat} {q : Int} {v : ℚ} (h : Takes m q v) (hodd : m % 2 ≠ 0) :
    (bounds m q).1 * (2 : ℚ) ^ (q - 2) < v ∧ v < (bounds m q).2 * (2 : ℚ) ^ (q - 2) := by
  unfold Takes at h
  rwa [if_neg hodd] at h

theorem not_takes_both {m m' : Nat} {q q' : Int} {v : ℚ} (h : Fits m q) (h' : Fits m' q')
    (hlt : q < q' ∨ (q = q' ∧ m < m')) (hv : Takes m q v) (hv' : Takes m' q' v) : False := by
  obtain ⟨hle, heven⟩ := bounds_apart h h' hlt
  have hend := hv.bounded.2
  have hbegin := hv'.bounded.1
  by_cases hm : m % 2 = 0
  · by_cases hm' : m' % 2 = 0
    · linarith [heven hm hm']
    · linarith [(hv'.strict hm').1]
  · linarith [(hv.strict hm).2]

/-- No number is rounded to two doubles. -/
theorem takes_unique {m m' : Nat} {q q' : Int} {v : ℚ} (h : Fits m q) (h' : Fits m' q') (hv : Takes m q v)
    (hv' : Takes m' q' v) : m = m' ∧ q = q' := by
  rcases lt_trichotomy q q' with hq | hq | hq
  · exact (not_takes_both h h' (.inl hq) hv hv').elim
  · rcases lt_trichotomy m m' with hm | hm | hm
    · exact (not_takes_both h h' (.inr ⟨hq, hm⟩) hv hv').elim
    · exact ⟨hm, hq⟩
    · exact (not_takes_both h' h (.inr ⟨hq.symm, hm⟩) hv' hv).elim
  · exact (not_takes_both h' h (.inl hq) hv' hv).elim

/-! ## Exact quotients -/

theorem shifted_one (m : Nat) (q : Int) : 0 < (shifted m 1 q).2 ∧ ((shifted m 1 q).1 : ℚ) = m * 2 ^ q * (shifted m 1 q).2 := by
  unfold shifted
  split
  · rename_i hq
    obtain ⟨n, rfl⟩ := Int.eq_ofNat_of_zero_le hq
    refine ⟨Nat.one_pos, ?_⟩
    show ((m * 2 ^ n : Nat) : ℚ) = m * 2 ^ (n : Int) * (1 : Nat)
    rw [zpow_natCast]
    push_cast
    ring
  · rename_i hq
    obtain ⟨n, rfl⟩ : ∃ n : Nat, q = -(n : Int) := ⟨(-q).toNat, by omega⟩
    refine ⟨Nat.mul_pos Nat.one_pos (Nat.pow_pos (by decide)), ?_⟩
    show (m : ℚ) = m * 2 ^ (-(n : Int)) * ((1 * 2 ^ (- -(n : Int)).toNat : Nat) : ℚ)
    rw [show (- -(n : Int)).toNat = n by omega, zpow_neg, zpow_natCast]
    push_cast
    field_simp

theorem overPowTen_quotient (m : Nat) (q k : Int) :
    0 < (overPowTen m q k).2 ∧ ((overPowTen m q k).1 : ℚ) * 10 ^ k = m * 2 ^ q * (overPowTen m q k).2 := by
  obtain ⟨hpos, hquotient⟩ := shifted_one m q
  unfold overPowTen
  dsimp only
  split
  · rename_i hk
    obtain ⟨n, rfl⟩ := Int.eq_ofNat_of_zero_le hk
    refine ⟨Nat.mul_pos hpos (Nat.pow_pos (by decide)), ?_⟩
    show ((shifted m 1 q).1 : ℚ) * 10 ^ (n : Int) = m * 2 ^ q * (((shifted m 1 q).2 * 10 ^ n : Nat) : ℚ)
    rw [hquotient, zpow_natCast]
    push_cast
    ring
  · rename_i hk
    obtain ⟨n, rfl⟩ : ∃ n : Nat, k = -(n : Int) := ⟨(-k).toNat, by omega⟩
    refine ⟨hpos, ?_⟩
    show (((shifted m 1 q).1 * 10 ^ (- -(n : Int)).toNat : Nat) : ℚ) * 10 ^ (-(n : Int)) = m * 2 ^ q * (shifted m 1 q).2
    rw [show (- -(n : Int)).toNat = n by omega, zpow_neg, zpow_natCast]
    push_cast
    rw [hquotient]
    field_simp

/-- The denominator does not depend on the mantissa. -/
theorem overPowTen_den (m m' : Nat) (q k : Int) : (overPowTen m q k).2 = (overPowTen m' q k).2 := by
  have hshifted : (shifted m 1 q).2 = (shifted m' 1 q).2 := by
    unfold shifted
    by_cases hq : 0 ≤ q
    · rw [if_pos hq, if_pos hq]
    · rw [if_neg hq, if_neg hq]
  unfold overPowTen
  by_cases hk : 0 ≤ k
  · simp only [hk, if_true, hshifted]
  · simp only [hk, if_false, hshifted]

theorem den_le_iff (m : Nat) (q k : Int) : (overPowTen m q k).2 ≤ (overPowTen m q k).1 ↔ (10 : ℚ) ^ k ≤ m * 2 ^ q := by
  obtain ⟨hpos, hquotient⟩ := overPowTen_quotient m q k
  have hden : (0 : ℚ) < (overPowTen m q k).2 := by exact_mod_cast hpos
  have hten := ten_zpow_pos k
  rw [← Nat.cast_le (α := ℚ), ← mul_le_mul_iff_left₀ hten, hquotient, mul_comm, mul_le_mul_iff_left₀ hden]

theorem readsBack_iff (m : Nat) (q : Int) (s : Nat) (k : Int) :
    readsBack m q s k = true ↔ Takes m q (s * 10 ^ k) := by
  obtain ⟨hpos, hlow⟩ := overPowTen_quotient (bounds m q).1 (q - 2) k
  obtain ⟨-, hhigh⟩ := overPowTen_quotient (bounds m q).2 (q - 2) k
  rw [overPowTen_den (bounds m q).2 (bounds m q).1] at hhigh
  have hten := ten_zpow_pos k
  unfold readsBack Takes
  dsimp only
  generalize (overPowTen (bounds m q).1 (q - 2) k).1 = n at *
  generalize (overPowTen (bounds m q).2 (q - 2) k).1 = n' at *
  generalize (overPowTen (bounds m q).1 (q - 2) k).2 = d at *
  have hden : (0 : ℚ) < d := by exact_mod_cast hpos
  have hproduct : ((s * d : Nat) : ℚ) * 10 ^ k = s * 10 ^ k * d := by push_cast; ring
  have hle : n ≤ s * d ↔ (bounds m q).1 * (2 : ℚ) ^ (q - 2) ≤ s * 10 ^ k := by
    rw [← Nat.cast_le (α := ℚ), ← mul_le_mul_iff_left₀ hten, hlow, hproduct, mul_le_mul_iff_left₀ hden]
  have hlt : n < s * d ↔ (bounds m q).1 * (2 : ℚ) ^ (q - 2) < s * 10 ^ k := by
    rw [← Nat.cast_lt (α := ℚ), ← mul_lt_mul_iff_left₀ hten, hlow, hproduct, mul_lt_mul_iff_left₀ hden]
  have hge : s * d ≤ n' ↔ s * 10 ^ k ≤ (bounds m q).2 * (2 : ℚ) ^ (q - 2) := by
    rw [← Nat.cast_le (α := ℚ), ← mul_le_mul_iff_left₀ hten, hhigh, hproduct, mul_le_mul_iff_left₀ hden]
  have hgt : s * d < n' ↔ s * 10 ^ k < (bounds m q).2 * (2 : ℚ) ^ (q - 2) := by
    rw [← Nat.cast_lt (α := ℚ), ← mul_lt_mul_iff_left₀ hten, hhigh, hproduct, mul_lt_mul_iff_left₀ hden]
  split
  · rw [Bool.and_eq_true, decide_eq_true_eq, decide_eq_true_eq, hle, hge]
  · rw [Bool.and_eq_true, decide_eq_true_eq, decide_eq_true_eq, hlt, hgt]

/-! ## One grid -/

theorem takes_of_inside {m : Nat} {q : Int} {v : ℚ} (hlow : (bounds m q).1 * (2 : ℚ) ^ (q - 2) < v)
    (hhigh : v < (bounds m q).2 * (2 : ℚ) ^ (q - 2)) : Takes m q v := by
  unfold Takes
  split
  · exact ⟨hlow.le, hhigh.le⟩
  · exact ⟨hlow, hhigh⟩

theorem quarters (m : Nat) (q : Int) : (m : ℚ) * 2 ^ q = 4 * m * 2 ^ (q - 2) := by
  rw [zpow_sub₀ (by norm_num)]
  norm_num
  ring

theorem bounds_low (m : Nat) (q : Int) (hm : 0 < m) : (bounds m q).1 < 4 * m := by
  unfold bounds
  dsimp only
  split <;> omega

theorem bounds_high (m : Nat) (q : Int) : 4 * m < (bounds m q).2 := by
  show 4 * m < 4 * m + 2
  omega

/-- A double lies around itself. -/
theorem value_inside {m : Nat} (hm : 0 < m) (q : Int) :
    (bounds m q).1 * (2 : ℚ) ^ (q - 2) < m * 2 ^ q ∧ (m : ℚ) * 2 ^ q < (bounds m q).2 * 2 ^ (q - 2) := by
  have hpos := two_zpow_pos (q - 2)
  have hlow : ((bounds m q).1 : ℚ) < 4 * m := by exact_mod_cast bounds_low m q hm
  have hhigh : (4 : ℚ) * m < (bounds m q).2 := by exact_mod_cast bounds_high m q
  rw [quarters m q]
  exact ⟨mul_lt_mul_of_pos_right hlow hpos, mul_lt_mul_of_pos_right hhigh hpos⟩

theorem onGrid?_takes {m : Nat} {q k : Int} {s : Nat} (h : onGrid? m q k = some s) : Takes m q (s * 10 ^ k) := by
  rw [← readsBack_iff]
  unfold onGrid? at h
  dsimp only at h
  split at h
  · rename_i hboth
    rw [Bool.and_eq_true] at hboth
    split at h
    · cases h
      exact hboth.1
    · cases h
      exact hboth.2
  · split at h
    · cases h
      assumption
    · split at h
      · cases h
        assumption
      · cases h

/-- The point of the grid below the double, and the next one above it. -/
theorem grid_floor {m : Nat} {q k : Int} {s : Nat} (hs : (overPowTen m q k).1 / (overPowTen m q k).2 = s) :
    (s : ℚ) * 10 ^ k ≤ m * 2 ^ q ∧ (m : ℚ) * 2 ^ q < ((s + 1 : Nat) : ℚ) * 10 ^ k := by
  obtain ⟨hpos, hquotient⟩ := overPowTen_quotient m q k
  have hten := ten_zpow_pos k
  have hden : (0 : ℚ) < (overPowTen m q k).2 := by exact_mod_cast hpos
  constructor
  · have hle : s * (overPowTen m q k).2 ≤ (overPowTen m q k).1 := hs ▸ Nat.div_mul_le_self ..
    rw [← mul_le_mul_iff_left₀ hden, ← hquotient]
    calc (s : ℚ) * 10 ^ k * (overPowTen m q k).2 = ((s * (overPowTen m q k).2 : Nat) : ℚ) * 10 ^ k := by push_cast; ring
      _ ≤ (overPowTen m q k).1 * 10 ^ k := by gcongr
  · have hlt : (overPowTen m q k).1 < (s + 1) * (overPowTen m q k).2 := by
      rw [← hs, Nat.mul_comm]
      exact Nat.lt_mul_div_succ _ hpos
    rw [← mul_lt_mul_iff_left₀ hden, ← hquotient]
    calc ((overPowTen m q k).1 : ℚ) * 10 ^ k < (((s + 1) * (overPowTen m q k).2 : Nat) : ℚ) * 10 ^ k := by gcongr
      _ = ((s + 1 : Nat) : ℚ) * 10 ^ k * (overPowTen m q k).2 := by push_cast; ring

theorem onGrid?_of_readsBack {m : Nat} {q k : Int} {s : Nat} (hs : (overPowTen m q k).1 / (overPowTen m q k).2 = s)
    (h : readsBack m q s k = true ∨ readsBack m q (s + 1) k = true) : (onGrid? m q k).isSome = true := by
  unfold onGrid?
  dsimp only
  rw [hs]
  rcases h with h | h
  · cases hother : readsBack m q (s + 1) k with
    | false => simp [h]
    | true =>
      simp only [h, Bool.and_true, if_true]
      split <;> rfl
  · cases hother : readsBack m q s k with
    | false => simp [h]
    | true =>
      simp only [h, Bool.and_true, if_true]
      split <;> rfl

/-- A grid whose steps are narrower than what lies around the double has a point there. -/
theorem onGrid?_isSome {m : Nat} {q k : Int} (hm : 0 < m)
    (hnarrow : (10 : ℚ) ^ k < ((bounds m q).2 - (bounds m q).1) * 2 ^ (q - 2)) : (onGrid? m q k).isSome = true := by
  obtain ⟨hlow, hhigh⟩ := value_inside hm q
  generalize hs : (overPowTen m q k).1 / (overPowTen m q k).2 = s
  obtain ⟨hbelow, habove⟩ := grid_floor hs
  refine onGrid?_of_readsBack hs ?_
  -- If neither neighbour were taken, a step would be as wide as all that lies around the double.
  by_contra hnone
  rw [not_or, readsBack_iff, readsBack_iff] at hnone
  have hs_low : (s : ℚ) * 10 ^ k ≤ (bounds m q).1 * 2 ^ (q - 2) := by
    by_contra hlt
    exact hnone.1 (takes_of_inside (not_le.1 hlt) (lt_of_le_of_lt hbelow hhigh))
  have hs_high : ((bounds m q).2 : ℚ) * 2 ^ (q - 2) ≤ ((s + 1 : Nat) : ℚ) * 10 ^ k := by
    by_contra hlt
    exact hnone.2 (takes_of_inside (lt_trans hlow habove) (not_le.1 hlt))
  push_cast at hs_high
  linarith

/-! ## Seventeen digits -/

theorem pow_ten_le_pow_two {i n : Nat} (h : 196 * i ≤ 59 * n) : 10 ^ i ≤ 2 ^ n := by
  refine (Nat.pow_le_pow_iff_left (show 196 ≠ 0 by decide)).1 ?_
  calc (10 ^ i) ^ 196 = 10 ^ (196 * i) := by rw [← Nat.pow_mul, Nat.mul_comm]
    _ ≤ 10 ^ (59 * n) := Nat.pow_le_pow_right (by decide) h
    _ = (10 ^ 59) ^ n := Nat.pow_mul ..
    _ ≤ (2 ^ 196) ^ n := Nat.pow_le_pow_left (by decide +kernel) n
    _ = (2 ^ n) ^ 196 := by rw [← Nat.pow_mul, ← Nat.pow_mul, Nat.mul_comm]

theorem pow_two_le_pow_ten {i n : Nat} (h : 146 * n ≤ 485 * i) : 2 ^ n ≤ 10 ^ i := by
  refine (Nat.pow_le_pow_iff_left (show 485 ≠ 0 by decide)).1 ?_
  calc (2 ^ n) ^ 485 = (2 ^ 485) ^ n := by rw [← Nat.pow_mul, ← Nat.pow_mul, Nat.mul_comm]
    _ ≤ (10 ^ 146) ^ n := Nat.pow_le_pow_left (by decide +kernel) n
    _ = 10 ^ (146 * n) := (Nat.pow_mul ..).symm
    _ ≤ 10 ^ (485 * i) := Nat.pow_le_pow_right (by decide) h
    _ = (10 ^ i) ^ 485 := by rw [← Nat.pow_mul, Nat.mul_comm]

/-- The first guess at the place of the first digit is too great by one at most. -/
theorem guess_le {e : Int} (hlow : -1074 ≤ e) (hhigh : e ≤ 1023) :
    (10 : ℚ) ^ ((e * 30103).fdiv 100000 - 1) ≤ 2 ^ e := by
  rw [Int.fdiv_eq_ediv_of_nonneg _ (by decide)]
  rcases Int.le_total 0 e with he | he
  · obtain ⟨n, rfl⟩ := Int.eq_ofNat_of_zero_le he
    have hpow : (10 : ℚ) ^ (n * 30103 / 100000 - 1) ≤ 2 ^ n := by
      exact_mod_cast pow_ten_le_pow_two (i := n * 30103 / 100000 - 1) (n := n) (by omega)
    calc (10 : ℚ) ^ ((n : Int) * 30103 / 100000 - 1) ≤ 10 ^ ((n * 30103 / 100000 - 1 : Nat) : Int) :=
          zpow_le_zpow_right₀ (by norm_num) (by omega)
      _ ≤ 2 ^ (n : Int) := by rwa [zpow_natCast, zpow_natCast]
  · obtain ⟨n, rfl⟩ : ∃ n : Nat, e = -(n : Int) := ⟨(-e).toNat, by omega⟩
    obtain ⟨i, hi⟩ : ∃ i : Nat, -(n : Int) * 30103 / 100000 - 1 = -(i : Int) :=
      ⟨(-(-(n : Int) * 30103 / 100000 - 1)).toNat, by omega⟩
    have hpow : (2 : ℚ) ^ n ≤ 10 ^ i := by
      exact_mod_cast pow_two_le_pow_ten (i := i) (n := n) (by omega)
    rw [hi, zpow_neg, zpow_neg, zpow_natCast, zpow_natCast]
    exact inv_anti₀ (by positivity) hpow

theorem leadingPlace_le {m : Nat} {q : Int} (h : Fits m q) (hm : 0 < m) :
    (10 : ℚ) ^ leadingPlace m q ≤ m * 2 ^ q := by
  have hlog : 2 ^ m.log2 ≤ m := Nat.log2_self_le (by omega)
  have hshort : m.log2 < 53 := (Nat.log2_lt (by omega)).2 h.small
  have hleast := h.least
  have hgreatest := h.greatest
  have hpower : (2 : ℚ) ^ ((m.log2 : Int) + q) ≤ m * 2 ^ q := by
    rw [zpow_add₀ (by norm_num), zpow_natCast]
    have hcast : (2 : ℚ) ^ m.log2 ≤ m := by exact_mod_cast hlog
    gcongr
  have hguess := guess_le (e := (m.log2 : Int) + q) (by omega) (by omega)
  unfold leadingPlace
  dsimp only
  generalize (((m.log2 : Int) + q) * 30103).fdiv 100000 = k at *
  split
  · rename_i hfit
    exact (den_le_iff m q (k + 1)).1 hfit
  · split
    · exact le_trans hguess hpower
    · rename_i hfit
      exact (den_le_iff m q k).1 (Nat.not_lt.1 hfit)

/-- The grid of seventeen digits is narrow enough. -/
theorem seventeen_narrow {m : Nat} {q : Int} (h : Fits m q) (hm : 0 < m) :
    (10 : ℚ) ^ (leadingPlace m q - 16) < ((bounds m q).2 - (bounds m q).1) * 2 ^ (q - 2) := by
  have hpos := two_zpow_pos (q - 2)
  have hplace : (10 : ℚ) ^ (leadingPlace m q - 16) * 10 ^ 16 ≤ 4 * m * 2 ^ (q - 2) := by
    have hle := leadingPlace_le h hm
    rw [quarters] at hle
    refine le_trans (le_of_eq ?_) hle
    rw [zpow_sub₀ (by norm_num)]
    norm_num
  have hwidth : ((4 * m : Nat) : ℚ) < ((bounds m q).2 - (bounds m q).1) * 10 ^ 16 := by
    have hsmall := h.small
    unfold bounds
    dsimp only
    split
    · rename_i hpower
      obtain ⟨rfl, -⟩ := hpower
      norm_num
    · have hcast : ((4 * m - 2 : Nat) : ℚ) = 4 * m - 2 := by
        rw [Nat.cast_sub (by omega)]
        push_cast
        ring
      have hlt : (m : ℚ) < 9007199254740992 := by exact_mod_cast hsmall
      rw [hcast]
      push_cast
      linarith
  have hscaled := mul_lt_mul_of_pos_right hwidth hpos
  push_cast at hscaled
  nlinarith

theorem shortestFrom_takes {m : Nat} {q place : Int} {fuel n : Nat}
    (h : (onGrid? m q (place - (n + fuel : Nat) + 1)).isSome = true) :
    Takes m q ((shortestFrom m q place fuel n).digits * 10 ^ (shortestFrom m q place fuel n).exponent) := by
  induction fuel generalizing n with
  | zero =>
    obtain ⟨s, hs⟩ := Option.isSome_iff_exists.1 h
    rw [Nat.add_zero] at hs
    simp only [shortestFrom, hs, Option.getD_some]
    exact onGrid?_takes hs
  | succ fuel ih =>
    unfold shortestFrom
    split
    · rename_i s hs
      exact onGrid?_takes hs
    · refine ih ?_
      rwa [Nat.add_right_comm]

/-- The decimal that is found for a double is rounded to it. -/
theorem takes_shortest {m : Nat} {q : Int} (h : Fits m q) (hm : 0 < m) :
    Takes m q ((shortest m q).digits * 10 ^ (shortest m q).exponent) := by
  refine shortestFrom_takes (onGrid?_isSome hm ?_)
  have hnarrow := seventeen_narrow h hm
  rwa [show leadingPlace m q - ((1 + 16 : Nat) : Int) + 1 = leadingPlace m q - 16 by omega]

/-- Zero is rounded to no other double. -/
theorem not_takes_zero {m : Nat} (hm : 0 < m) (q : Int) : ¬Takes m q 0 := by
  intro h
  have hlow : 0 < (bounds m q).1 := by
    unfold bounds
    dsimp only
    split <;> omega
  have hpos : (0 : ℚ) < (bounds m q).1 * 2 ^ (q - 2) := mul_pos (by exact_mod_cast hlow) (two_zpow_pos _)
  linarith [h.bounded.1]

theorem takes_zero (q : Int) : Takes 0 q 0 := by
  have hpos := two_zpow_pos (q - 2)
  refine ⟨?_, ?_⟩ <;> simp [bounds, hpos.le]

end DeviceEvents.Binary64
