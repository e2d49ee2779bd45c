import Mathlib.Tactic.LinearCombination
import Clausal.Number.Rounding
import Clausal.Proofs.Number.Interval
import Clausal.Proofs.Number.UnitInterval

/-!
# Decimals in the rounding interval are read as the number

Main statement: `ofDecimal_shortest`. Rounding a fraction brings it to an exponent at which it is a
significand (`exponentOf_spec`) and takes the nearest integer there (`roundQuotient_eq`). A fraction
in the rounding interval of a number comes to the exponent of that number, or, just below a power
of two, to the exponent before, where it is rounded up to the next power of two.
-/

namespace Clausal.Binary64

/-! ### The nearest integer -/

/-- An integer is the nearest one when it is at most a half away, and even if it is a half away. -/
theorem roundQuotient_eq {n d m : ℕ} {q : ℚ} (positive : 0 < d) (ratio : (n : ℚ) = q * d)
    (low : m - 1 / 2 ≤ q) (high : q ≤ m + 1 / 2)
    (tie : q = m - 1 / 2 ∨ q = m + 1 / 2 → m % 2 = 0) : roundQuotient n d = m := by
  have scale : (0 : ℚ) < d := by exact_mod_cast positive
  have lowNat : 2 * (m * d) ≤ 2 * n + d := by
    have : 2 * ((m : ℚ) * d) ≤ 2 * n + d := by
      rw [ratio]
      nlinarith
    exact_mod_cast this
  have highNat : 2 * n ≤ 2 * (m * d) + d := by
    have : 2 * (n : ℚ) ≤ 2 * (m * d) + d := by
      rw [ratio]
      nlinarith
    exact_mod_cast this
  have tieLow (h : 2 * (m * d) = 2 * n + d) : m % 2 = 0 := by
    refine tie (.inl (mul_right_cancel₀ scale.ne' ?_))
    have : 2 * ((m : ℚ) * d) = 2 * n + d := by exact_mod_cast h
    rw [ratio] at this
    linarith
  have tieHigh (h : 2 * n = 2 * (m * d) + d) : m % 2 = 0 := by
    refine tie (.inr (mul_right_cancel₀ scale.ne' ?_))
    have : 2 * (n : ℚ) = 2 * (m * d) + d := by exact_mod_cast h
    rw [ratio] at this
    linarith
  have parts := Nat.div_add_mod n d
  have small := Nat.mod_lt n positive
  unfold roundQuotient
  dsimp only
  set k := n / d
  set r := n % d
  have product : k * d = d * k := Nat.mul_comm k d
  -- the quotient rounded down is `m`, or `m - 1` where the rounding goes up
  rcases Nat.lt_trichotomy m k with less | equal | more
  · have : (m + 1) * d ≤ k * d := Nat.mul_le_mul_right d less
    rw [Nat.add_mul, one_mul] at this
    omega
  · subst equal
    split
    · rfl
    · split <;> omega
  · obtain far | rfl : k + 2 ≤ m ∨ m = k + 1 := by omega
    · have : (k + 2) * d ≤ m * d := Nat.mul_le_mul_right d far
      rw [Nat.add_mul] at this
      omega
    · rw [Nat.add_mul, one_mul] at lowNat highNat tieLow tieHigh
      split
      · omega
      · split <;> omega

/-! ### The exponent -/

theorem cast_scaleDown (num : ℕ) {den : ℕ} (positive : 0 < den) (shift : ℤ) :
    0 < (scaleDown num den shift).2 ∧
      ((scaleDown num den shift).1 : ℚ) = num / den / 2 ^ shift * (scaleDown num den shift).2 := by
  have scale : (den : ℚ) ≠ 0 := by exact_mod_cast positive.ne'
  have two := pow_toNat (b := 2) (by norm_num) shift
  unfold scaleDown
  split
  case isTrue negative =>
    rw [Int.toNat_of_nonpos negative.le, pow_zero] at two
    refine ⟨positive, ?_⟩
    simp only [Nat.pow_eq]
    push_cast
    rw [div_div, div_mul_eq_mul_div, eq_div_iff (by positivity)]
    linear_combination (-(num : ℚ) * den) * two
  case isFalse nonnegative =>
    rw [Int.toNat_of_nonpos (show -shift ≤ 0 by omega), pow_zero, mul_one] at two
    refine ⟨Nat.mul_pos positive (Nat.pow_pos (by norm_num)), ?_⟩
    simp only [Nat.pow_eq]
    push_cast
    rw [two]
    field_simp

/-- The binary logarithms of numerator and denominator give that of the fraction up to one. -/
theorem ratio_bounds {num den : ℕ} (hn : num ≠ 0) (hd : den ≠ 0) :
    (2 : ℚ) ^ ((Nat.log2 num : ℤ) - Nat.log2 den - 1) ≤ num / den ∧
      (num / den : ℚ) < 2 ^ ((Nat.log2 num : ℤ) - Nat.log2 den + 1) := by
  have positive : (0 : ℚ) < den := by exact_mod_cast Nat.pos_of_ne_zero hd
  have numLow : (2 : ℚ) ^ Nat.log2 num ≤ num := by exact_mod_cast Nat.log2_self_le hn
  have numHigh : (num : ℚ) < 2 ^ Nat.log2 num * 2 := by
    rw [← pow_succ]
    exact_mod_cast Nat.lt_log2_self
  have denLow : (2 : ℚ) ^ Nat.log2 den ≤ den := by exact_mod_cast Nat.log2_self_le hd
  have denHigh : (den : ℚ) < 2 ^ Nat.log2 den * 2 := by
    rw [← pow_succ]
    exact_mod_cast Nat.lt_log2_self
  have power : (0 : ℚ) < 2 ^ Nat.log2 den := by positivity
  constructor
  · rw [zpow_sub_one₀ (by norm_num), zpow_sub₀ (by norm_num), zpow_natCast, zpow_natCast,
      le_div_iff₀ positive, ← div_eq_mul_inv, div_div, div_mul_eq_mul_div, div_le_iff₀ (by positivity)]
    exact mul_le_mul numLow denHigh.le positive.le (by positivity)
  · rw [zpow_add_one₀ (by norm_num), zpow_sub₀ (by norm_num), zpow_natCast, zpow_natCast,
      div_lt_iff₀ positive, div_mul_eq_mul_div, div_mul_eq_mul_div, lt_div_iff₀ power]
    exact mul_lt_mul numHigh denLow power (by positivity)

/-- The exponent is the least one at which the fraction is a significand of at most 53 bits. -/
theorem exponentOf_spec {num den : ℕ} (hn : num ≠ 0) (hd : den ≠ 0) :
    -1074 ≤ exponentOf num den ∧ (num / den : ℚ) < 2 ^ 53 * 2 ^ exponentOf num den ∧
      (exponentOf num den = -1074 ∨ 2 ^ 52 * 2 ^ exponentOf num den ≤ (num / den : ℚ)) := by
  have hidden : hiddenBit = 2 ^ 52 := rfl
  obtain ⟨low, high⟩ := ratio_bounds hn hd
  have steps (n : ℕ) (e : ℤ) : (2 : ℚ) ^ n * 2 ^ e = 2 ^ (e + n) := by
    rw [zpow_add₀ (by norm_num), zpow_natCast, mul_comm]
  unfold exponentOf
  dsimp only
  -- the estimate from the lengths in bits is too small by one at most
  set guess : ℤ := max (-1074) ((Nat.log2 num : ℤ) - Nat.log2 den - 53)
  obtain ⟨positive, ratio⟩ := cast_scaleDown num (Nat.pos_of_ne_zero hd) guess
  have fits : (scaleDown num den guess).1 / (scaleDown num den guess).2 < 2 * hiddenBit ↔
      (num / den : ℚ) < 2 ^ 53 * 2 ^ guess := by
    rw [Nat.div_lt_iff_lt_mul positive, hidden, ← Nat.cast_lt (α := ℚ), ratio, Nat.cast_mul,
      mul_lt_mul_iff_left₀ (by exact_mod_cast positive), div_lt_iff₀ (by positivity)]
    norm_num
  split
  case isTrue small =>
    refine ⟨le_max_left .., fits.1 small, ?_⟩
    rcases max_choice (-1074) ((Nat.log2 num : ℤ) - Nat.log2 den - 53) with least | estimated
    · exact .inl least
    · refine .inr (le_trans (le_of_eq ?_) low)
      rw [steps]
      congr 1
      omega
  case isFalse large =>
    refine ⟨by omega, ?_, .inr ?_⟩
    · refine high.trans_le ?_
      rw [steps]
      exact zpow_le_zpow_right₀ (by norm_num) (by omega)
    · refine le_trans (le_of_eq ?_) (not_lt.1 (mt fits.2 large))
      rw [steps, steps]
      congr 1
      omega

/-! ### Fractions in the rounding interval -/

/-- What the rounding interval says about a fraction, in units of the last place of the number. Only
numbers with an even significand own the ends. -/
structure Surrounds (x : Binary64) (q : ℚ) : Prop where
  low : (x.significand - 1 / 2) * 2 ^ x.exponent ≤ q
  lowLeast : x.significand = 2 ^ 52 → -1074 < x.exponent →
    (x.significand - 1 / 4) * 2 ^ x.exponent ≤ q
  high : q ≤ (x.significand + 1 / 2) * 2 ^ x.exponent
  tie : q = (x.significand - 1 / 2) * 2 ^ x.exponent ∨
    q = (x.significand + 1 / 2) * 2 ^ x.exponent → x.significand % 2 = 0

theorem surrounds_of_holds {x : Binary64} (positive : x.significand ≠ 0) {q : ℚ}
    (h : x.roundingInterval.Holds (x.exponent - 2) q) : x.Surrounds q := by
  have quarter : (2 : ℚ) ^ (x.exponent - 2) = 2 ^ x.exponent / 4 := by
    rw [zpow_sub₀ (by norm_num)]
    norm_num
  have unit : (0 : ℚ) < 2 ^ x.exponent := by positivity
  have low := roundingInterval_low x positive
  have high : (x.roundingInterval.high : ℚ) = 4 * x.significand + 2 := by
    simp [roundingInterval]
  obtain ⟨lower, upper⟩ := h.between
  rw [quarter, low] at lower
  rw [quarter, high] at upper
  refine ⟨?_, fun least normal => ?_, by linarith, fun tie => ?_⟩
  · split at lower <;> nlinarith
  · rw [if_pos ⟨least, normal⟩] at lower
    linarith
  · -- the interval of an odd significand is open, and the ties are its ends
    by_contra odd
    have isOpen : ¬ x.roundingInterval.closed = true := by simpa [roundingInterval] using odd
    unfold RoundingInterval.Holds at h
    rw [if_neg isOpen, quarter, low, high] at h
    obtain ⟨lower, upper⟩ := h
    rcases tie with rfl | rfl
    · split at lower <;> nlinarith
    · linarith

/-- The magnitude of a number comes out of every fraction in its rounding interval. -/
theorem magnitudeOfRatio_eq {x : Binary64} (finite : x.isFinite = true) {num den : ℕ}
    (hn : num ≠ 0) (hd : den ≠ 0) (near : x.Surrounds (num / den : ℚ)) :
    magnitudeOfRatio num den = x.magnitude := by
  have hidden : hiddenBit = 2 ^ 52 := rfl
  have unit : (0 : ℚ) < 2 ^ x.exponent := by positivity
  have few : (x.significand : ℚ) ≤ 2 ^ 53 - 1 := by
    have : x.significand + 1 ≤ 2 ^ 53 := significand_lt x
    have : (x.significand : ℚ) + 1 ≤ 2 ^ 53 := by exact_mod_cast this
    linarith
  have bound : x.magnitude < infinityMagnitude := of_decide_eq_true finite
  have magnitude := magnitude_eq x
  obtain ⟨leastExponent, -⟩ := exponent_bounds finite
  obtain ⟨low, fits, full⟩ := exponentOf_spec hn hd
  unfold magnitudeOfRatio
  dsimp only
  rw [hidden]
  set s := exponentOf num den
  obtain ⟨positive, ratio⟩ := cast_scaleDown num (Nat.pos_of_ne_zero hd) s
  rcases lt_trichotomy s x.exponent with below | equal | above
  · -- only just below a power of two, which is then what the fraction is rounded to
    have normal := hiddenBit_le_significand (x := x) (by omega)
    have shrink (k : ℕ) (h : s + k ≤ x.exponent) : (2 : ℚ) ^ s * 2 ^ k ≤ 2 ^ x.exponent := by
      rw [← zpow_natCast, ← zpow_add₀ (by norm_num)]
      exact zpow_le_zpow_right₀ (by norm_num) h
    have half := shrink 1 (by omega)
    have least : x.significand = 2 ^ 52 := by
      have : (x.significand : ℚ) < 2 ^ 52 + 1 := by nlinarith [near.low]
      have : x.significand < 2 ^ 52 + 1 := by exact_mod_cast this
      omega
    have low := near.lowLeast least (by omega)
    rw [least] at low
    push_cast at low
    have next : s + 1 = x.exponent := by
      by_contra far
      have quarter := shrink 2 (by push_cast; omega)
      nlinarith
    have double : (2 : ℚ) ^ x.exponent = 2 ^ s * 2 := by rw [← next, zpow_add_one₀ (by norm_num)]
    have rounded := roundQuotient_eq (m := 2 ^ 53) positive ratio
      (by
        push_cast
        rw [le_div_iff₀ (by positivity)]
        linarith)
      (by
        push_cast
        rw [div_le_iff₀ (by positivity)]
        linarith)
      fun _ => rfl
    rw [rounded]
    omega
  · -- the exponent is that of the float, and so is the significand it rounds to
    have rounded := roundQuotient_eq (m := x.significand) positive ratio
      (by rw [equal, le_div_iff₀ unit]; exact near.low)
      (by rw [equal, div_le_iff₀ unit]; exact near.high)
      (by rw [equal, div_eq_iff unit.ne', div_eq_iff unit.ne']; exact near.tie)
    rw [rounded]
    omega
  · -- the fraction is too small for that exponent
    have full := full.resolve_left (by omega)
    have grow : (2 : ℚ) ^ x.exponent * 2 ≤ 2 ^ s := by
      rw [← zpow_add_one₀ (by norm_num)]
      exact zpow_le_zpow_right₀ (by norm_num) above
    nlinarith [near.high]

/-! ### Decimals in the rounding interval -/

theorem digitCount_bounds {n : ℕ} (hn : n ≠ 0) : 10 ^ (digitCount n - 1) ≤ n ∧ n < 10 ^ digitCount n := by
  unfold digitCount
  rw [if_neg hn]
  have positive := Nat.length_toDigits_pos (b := 10) (n := n)
  refine ⟨?_, (Nat.length_toDigits_le_iff (by decide) positive).1 le_rfl⟩
  by_cases single : (Nat.toDigits 10 n).length = 1
  · rw [single]
    exact Nat.one_le_iff_ne_zero.2 hn
  · by_contra less
    have := (Nat.length_toDigits_le_iff (b := 10) (n := n) (by decide) (by omega)).2 (not_le.1 less)
    omega

/-- The size of a decimal, by the place of its first digit. -/
theorem decimal_bounds {digits : ℕ} (hn : digits ≠ 0) (exponent : ℤ) :
    (10 : ℚ) ^ (digitCount digits + exponent - 1) ≤ digits * 10 ^ exponent ∧
      (digits : ℚ) * 10 ^ exponent < 10 ^ (digitCount digits + exponent) := by
  obtain ⟨low, high⟩ := digitCount_bounds hn
  have counted : 1 ≤ digitCount digits := by
    by_contra none
    rw [Nat.lt_one_iff.1 (not_le.1 none)] at high
    omega
  have split (k : ℕ) : (10 : ℚ) ^ (k + exponent) = (10 ^ k : ℕ) * 10 ^ exponent := by
    rw [zpow_add₀ (by norm_num), zpow_natCast]
    push_cast
    rfl
  have first : (digitCount digits + exponent - 1 : ℤ) = (digitCount digits - 1 : ℕ) + exponent := by
    omega
  rw [first, split, split]
  constructor
  · exact mul_le_mul_of_nonneg_right (by exact_mod_cast low) (by positivity)
  · exact mul_lt_mul_of_pos_right (by exact_mod_cast high) (by positivity)

/-- What surrounds a finite number is neither very small nor very large. -/
theorem Surrounds.bounds {x : Binary64} {q : ℚ} (finite : x.isFinite = true)
    (positive : x.significand ≠ 0) (near : x.Surrounds q) :
    (2 : ℚ) ^ (-1075 : ℤ) ≤ q ∧ q < 2 ^ (1024 : ℤ) := by
  obtain ⟨low, high⟩ := exponent_bounds finite
  have some : (1 : ℚ) ≤ x.significand := by exact_mod_cast Nat.one_le_iff_ne_zero.2 positive
  have few : (x.significand : ℚ) + 1 ≤ 2 ^ 53 := by exact_mod_cast significand_lt x
  constructor
  · calc (2 : ℚ) ^ (-1075 : ℤ) = 1 / 2 * 2 ^ (-1074 : ℤ) := by
          rw [show (-1075 : ℤ) = -1074 - 1 from rfl, zpow_sub_one₀ (by norm_num)]
          ring
      _ ≤ (x.significand - 1 / 2) * 2 ^ x.exponent :=
        mul_le_mul (by linarith) (zpow_le_zpow_right₀ (by norm_num) low) (by positivity)
          (by linarith)
      _ ≤ q := near.low
  · calc q ≤ (x.significand + 1 / 2) * 2 ^ x.exponent := near.high
      _ < 2 ^ 53 * 2 ^ x.exponent := mul_lt_mul_of_pos_right (by linarith) (by positivity)
      _ ≤ 2 ^ 53 * 2 ^ (971 : ℤ) :=
        mul_le_mul_of_nonneg_left (zpow_le_zpow_right₀ (by norm_num) high) (by positivity)
      _ = 2 ^ (1024 : ℤ) := by
          rw [show (1024 : ℤ) = 971 + (53 : ℕ) from rfl, zpow_add₀ (by norm_num), zpow_natCast,
            mul_comm]

/-- Three binary places are less than a decimal one. -/
theorem two_zpow_lt {n : ℤ} (h : n < 1200) : (2 : ℚ) ^ n < 10 ^ (400 : ℤ) :=
  calc (2 : ℚ) ^ n < 2 ^ (3 * 400 : ℤ) := zpow_lt_zpow_right₀ (by norm_num) h
    _ = (2 ^ (3 : ℤ)) ^ (400 : ℤ) := zpow_mul ..
    _ ≤ 10 ^ (400 : ℤ) := zpow_le_zpow_left₀ (by norm_num) (by positivity) (by norm_num)

/-- **A decimal in the rounding interval of a number is read as that number.** -/
theorem magnitudeOfDecimal_eq {x : Binary64} (finite : x.isFinite = true)
    (positive : x.significand ≠ 0) {digits : ℕ} {exponent : ℤ}
    (near : x.Surrounds (digits * 10 ^ exponent)) :
    magnitudeOfDecimal digits exponent = x.magnitude := by
  obtain ⟨low, high⟩ := near.bounds finite positive
  have some : digits ≠ 0 := by
    rintro rfl
    rw [Nat.cast_zero, zero_mul] at low
    exact absurd low (not_le.2 (by positivity))
  obtain ⟨lower, upper⟩ := decimal_bounds some exponent
  -- a number near to a float that is neither zero nor infinite is treated by neither shortcut
  have notLarge : ¬ 400 < digitCount digits + exponent := fun large => by
    have grow : (10 : ℚ) ^ (400 : ℤ) ≤ 10 ^ (digitCount digits + exponent - 1) :=
      zpow_le_zpow_right₀ (by norm_num) (by omega)
    exact absurd (grow.trans lower) (not_le.2 (high.trans (two_zpow_lt (by norm_num))))
  have notSmall : ¬ digitCount digits + exponent < -400 := fun small => by
    have shrink : (10 : ℚ) ^ (digitCount digits + exponent) ≤ 10 ^ (-400 : ℤ) :=
      zpow_le_zpow_right₀ (by norm_num) (by omega)
    have apart : (10 : ℚ) ^ (-400 : ℤ) < 2 ^ (-1075 : ℤ) := by
      rw [zpow_neg, zpow_neg, inv_lt_inv₀ (by positivity) (by positivity)]
      exact two_zpow_lt (by norm_num)
    exact absurd low (not_le.2 ((upper.trans_le shrink).trans apart))
  unfold magnitudeOfDecimal
  rw [if_neg some, if_neg notLarge, if_neg notSmall]
  split
  case isTrue negative =>
    refine magnitudeOfRatio_eq finite some (Nat.pow_pos (by norm_num)).ne' ?_
    have ratio : (digits : ℚ) / (Nat.pow 10 (-exponent).toNat : ℕ) = digits * 10 ^ exponent := by
      have ten := pow_toNat (b := 10) (by norm_num) exponent
      rw [Int.toNat_of_nonpos negative.le, pow_zero] at ten
      rw [Nat.pow_eq, div_eq_iff (by positivity)]
      push_cast
      rw [mul_assoc, ← ten, mul_one]
    rwa [ratio]
  case isFalse nonnegative =>
    refine magnitudeOfRatio_eq finite (Nat.mul_ne_zero some (Nat.pow_pos (by norm_num)).ne')
      one_ne_zero ?_
    have ratio : ((digits * Nat.pow 10 exponent.toNat : ℕ) : ℚ) / (1 : ℕ) =
        digits * 10 ^ exponent := by
      have ten := pow_toNat (b := 10) (by norm_num) exponent
      rw [Int.toNat_of_nonpos (show -exponent ≤ 0 by omega), pow_zero, mul_one] at ten
      rw [Nat.pow_eq]
      push_cast
      rw [ten, div_one]
    rwa [ratio]

/-! ### Numbers from their parts -/

theorem ofMagnitude_magnitude (x : Binary64) : ofMagnitude x.isNegative x.magnitude = x := by
  have top : signBit = 2 ^ 63 := rfl
  have size := x.bits.toNat_lt
  have bits : x.magnitude + (if x.isNegative then signBit else 0) = x.bits.toNat := by
    unfold magnitude isNegative
    rw [top]
    split <;> rename_i sign <;> simp only [decide_eq_true_eq] at sign <;> omega
  rw [ofMagnitude, bits, UInt64.ofNat_toNat]

section Shortest

variable {x : Binary64} (finite : x.isFinite = true) (positive : x.magnitude ≠ 0) (tie : Tie)

include finite positive

theorem surrounds_shortest : x.Surrounds (x.shortest tie).toRat := by
  have positive : x.significand ≠ 0 := mt (significand_eq_zero_iff x).1 positive
  exact surrounds_of_holds positive (holds_shortest finite positive tie)

theorem digits_shortest_ne_zero : (x.shortest tie).digits ≠ 0 := by
  intro zero
  have low := ((surrounds_shortest finite positive tie).bounds finite
    (mt (significand_eq_zero_iff x).1 positive)).1
  rw [Decimal.toRat, zero, Nat.cast_zero, zero_mul] at low
  exact absurd low (not_le.2 (by positivity))

/-- **The shortest decimal of a number is read as that number**, however it is written. -/
theorem ofDecimal_shortest {digits : ℕ} {exponent : ℤ}
    (value : (digits : ℚ) * 10 ^ exponent = (x.shortest tie).toRat) :
    ofDecimal x.isNegative digits exponent = x := by
  have near := surrounds_shortest finite positive tie
  rw [← value] at near
  rw [ofDecimal, magnitudeOfDecimal_eq finite (mt (significand_eq_zero_iff x).1 positive) near,
    ofMagnitude_magnitude]

end Shortest

end Clausal.Binary64
