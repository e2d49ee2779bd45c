import Mathlib.Algebra.Order.Field.Power
import Mathlib.Algebra.Order.Field.Rat
import Mathlib.Tactic.Linarith
import Mathlib.Tactic.NormNum
import Mathlib.Tactic.Positivity
import Clausal.Number.Binary64

/-!
# Probabilities

The check that a number lies from zero to one looks at its bits only. Here the number is read as a
fraction: the check says that it is a finite number from zero to one (`inUnitInterval_iff`). In
particular neither an infinity nor NaN passes.
-/

namespace Clausal.Binary64

/-- The fraction that a finite number stands for. -/
def toRat (x : Binary64) : ℚ :=
  (if x.isNegative then -1 else 1) * (x.significand * 2 ^ x.exponent)

/-- A finite number from zero to one. -/
def IsProbability (x : Binary64) : Prop := x.isFinite = true ∧ 0 ≤ x.toRat ∧ x.toRat ≤ 1

theorem mul_two_zpow_le_one_iff (n : ℕ) (e : ℤ) : (n : ℚ) * 2 ^ e ≤ 1 ↔ (n : ℚ) ≤ 2 ^ (-e) := by
  rw [zpow_neg, ← one_div, le_div_iff₀ (by positivity)]

/-- The magnitude of one is the greatest magnitude of a number that is at most one. -/
theorem significand_le_iff (x : Binary64) :
    (x.significand : ℚ) ≤ 2 ^ (-x.exponent) ↔ x.magnitude ≤ oneMagnitude := by
  have hidden : hiddenBit = 2 ^ 52 := rfl
  have one : oneMagnitude = 1023 * 2 ^ 52 := rfl
  unfold significand exponent
  rw [hidden, one]
  split
  case isTrue small =>
    have bound : (x.magnitude : ℚ) ≤ 2 ^ (52 : ℤ) := by exact_mod_cast small.le
    have grow : (2 : ℚ) ^ (52 : ℤ) ≤ 2 ^ (-(-1074) : ℤ) :=
      zpow_le_zpow_right₀ (by norm_num) (by norm_num)
    exact iff_of_true (bound.trans grow) (by omega)
  case isFalse large =>
    have split := Nat.div_add_mod x.magnitude (2 ^ 52)
    have below := Nat.mod_lt x.magnitude (show 0 < 2 ^ 52 by norm_num)
    set k := x.magnitude / 2 ^ 52
    set f := x.magnitude % 2 ^ 52
    -- 1023 is the biased exponent of one
    rcases lt_trichotomy k 1023 with small | equal | large
    · have bound : ((2 ^ 52 + f : ℕ) : ℚ) ≤ 2 ^ (53 : ℤ) := by
        have : 2 ^ 52 + f ≤ 2 ^ 53 := by omega
        exact_mod_cast this
      have grow : (2 : ℚ) ^ (53 : ℤ) ≤ 2 ^ (-((k : ℤ) - 1075)) :=
        zpow_le_zpow_right₀ (by norm_num) (by omega)
      exact iff_of_true (bound.trans grow) (by omega)
    · have e : -((k : ℤ) - 1075) = 52 := by omega
      rw [e, show ((2 : ℚ) ^ (52 : ℤ)) = ((2 ^ 52 : ℕ) : ℚ) by norm_num, Nat.cast_le]
      omega
    · have bound : (2 : ℚ) ^ (52 : ℤ) ≤ ((2 ^ 52 + f : ℕ) : ℚ) := by
        have : 2 ^ 52 ≤ 2 ^ 52 + f := by omega
        exact_mod_cast this
      have shrink : (2 : ℚ) ^ (-((k : ℤ) - 1075)) < 2 ^ (52 : ℤ) :=
        zpow_lt_zpow_right₀ (by norm_num) (by omega)
      exact iff_of_false (shrink.trans_le bound).not_ge (by omega)

theorem significand_eq_zero_iff (x : Binary64) : x.significand = 0 ↔ x.magnitude = 0 := by
  have hidden : hiddenBit = 2 ^ 52 := rfl
  unfold significand
  split <;> omega

/-- What the check of the bits says about the number. -/
theorem inUnitInterval_iff (x : Binary64) : x.inUnitInterval = true ↔ x.IsProbability := by
  have size : (0 : ℚ) ≤ x.significand * 2 ^ x.exponent := by positivity
  have atMost : (x.significand : ℚ) * 2 ^ x.exponent ≤ 1 ↔ x.magnitude ≤ oneMagnitude := by
    rw [mul_two_zpow_le_one_iff, significand_le_iff]
  have finite : x.magnitude ≤ oneMagnitude → x.isFinite = true := fun h => by
    simp only [isFinite, infinityMagnitude, oneMagnitude] at h ⊢
    exact decide_eq_true (by omega)
  have zero : (x.significand : ℚ) * 2 ^ x.exponent ≤ 0 ↔ x.magnitude = 0 := by
    have positive : (2 : ℚ) ^ x.exponent ≠ 0 := by positivity
    rw [← significand_eq_zero_iff, ← Nat.cast_eq_zero (R := ℚ)]
    constructor
    · intro h
      exact (mul_eq_zero.1 (le_antisymm h size)).resolve_right positive
    · intro h
      simp [h]
  unfold inUnitInterval IsProbability toRat
  -- with the sign, only zero is in the interval
  cases x.isNegative with
  | false =>
    simp only [Bool.false_eq_true, if_false, one_mul, Bool.not_false, Bool.true_and,
      Bool.or_eq_true, beq_iff_eq, decide_eq_true_eq, atMost, size, true_and]
    constructor
    · rintro (h | h)
      · exact ⟨finite (by omega), by omega⟩
      · exact ⟨finite h, h⟩
    · exact fun h => .inr h.2
  | true =>
    simp only [if_true, neg_mul, one_mul, Bool.not_true, Bool.false_and, Bool.or_false,
      beq_iff_eq, Left.nonneg_neg_iff, zero]
    constructor
    · intro h
      exact ⟨finite (by omega), h, by linarith⟩
    · exact fun h => h.2.1

end Clausal.Binary64
