import Mathlib.Algebra.Order.Field.Power
import Mathlib.Algebra.Order.Field.Rat
import Mathlib.Tactic.FieldSimp
import Mathlib.Tactic.Linarith
import Mathlib.Tactic.NormNum
import Mathlib.Tactic.Positivity
import Mathlib.Tactic.Ring
import Clausal.Number.Shortest

/-!
# The shortest decimal lies in the rounding interval

Main statement: `holds_shortest`. The comparisons on natural numbers are read as comparisons of
fractions (`commonScale_le_iff`), the estimate of the first decimal place is never too great
(`pow_leadingPlace_le`), and on the grid of seventeen digits one of the two neighbours of a number
always rounds to it (`exists_onGrid?`). So the search never ends without a decimal.
-/

namespace Clausal.Binary64

/-! ### Fractions on a common scale -/

theorem pow_toNat {b : ℚ} (hb : b ≠ 0) (n : ℤ) : b ^ n.toNat = b ^ n * b ^ (-n).toNat := by
  have parts : (n.toNat : ℤ) - (-n).toNat = n := Int.toNat_sub_toNat_neg n
  calc b ^ n.toNat = b ^ (n.toNat : ℤ) := (zpow_natCast b _).symm
    _ = b ^ (n + (-n).toNat) := by rw [← sub_eq_iff_eq_add.1 parts]
    _ = b ^ n * b ^ (-n).toNat := by rw [zpow_add₀ hb, zpow_natCast]

/-- Both factors are the powers that they stand for, times one and the same positive number. -/
theorem cast_commonScale (place shift : ℤ) : ∃ s : ℚ, 0 < s ∧
    ((commonScale place shift).1 : ℚ) = 10 ^ place * s ∧
    ((commonScale place shift).2 : ℚ) = 2 ^ shift * s := by
  refine ⟨10 ^ (-place).toNat * 2 ^ (-shift).toNat, by positivity, ?_, ?_⟩
  · have ten := pow_toNat (b := 10) (by norm_num) place
    simp only [commonScale, Nat.pow_eq]
    push_cast
    rw [ten]
    ring
  · have two := pow_toNat (b := 2) (by norm_num) shift
    simp only [commonScale, Nat.pow_eq]
    push_cast
    rw [two]
    ring

theorem commonScale_le_iff (place shift : ℤ) (c m : ℕ) :
    c * (commonScale place shift).1 ≤ m * (commonScale place shift).2 ↔
      (c : ℚ) * 10 ^ place ≤ m * 2 ^ shift := by
  obtain ⟨s, positive, ten, two⟩ := cast_commonScale place shift
  rw [← Nat.cast_le (α := ℚ), Nat.cast_mul, Nat.cast_mul, ten, two, ← mul_assoc, ← mul_assoc,
    mul_le_mul_iff_left₀ positive]

theorem le_commonScale_iff (place shift : ℤ) (c m : ℕ) :
    m * (commonScale place shift).2 ≤ c * (commonScale place shift).1 ↔
      (m : ℚ) * 2 ^ shift ≤ c * 10 ^ place := by
  obtain ⟨s, positive, ten, two⟩ := cast_commonScale place shift
  rw [← Nat.cast_le (α := ℚ), Nat.cast_mul, Nat.cast_mul, ten, two, ← mul_assoc, ← mul_assoc,
    mul_le_mul_iff_left₀ positive]

/-! ### The first decimal place -/

/-- A bound on the exponents, through powers of ten and of two that are near to each other. -/
theorem zpow_le_of_places {l p : ℤ} {n k : ℕ} (hn : n ≠ 0) (places : n * p ≤ k * l)
    (base : ((10 : ℚ) ^ k) ^ l ≤ (2 ^ n) ^ l) : (10 : ℚ) ^ p ≤ 2 ^ l := by
  refine (pow_le_pow_iff_left₀ (by positivity) (by positivity) hn).1 ?_
  calc ((10 : ℚ) ^ p) ^ n = 10 ^ (n * p) := by rw [← zpow_natCast, ← zpow_mul, mul_comm]
    _ ≤ 10 ^ (k * l) := zpow_le_zpow_right₀ (by norm_num) places
    _ = (10 ^ k) ^ l := by rw [zpow_mul, zpow_natCast]
    _ ≤ (2 ^ n) ^ l := base
    _ = (2 ^ l) ^ n := by rw [← zpow_natCast, ← zpow_natCast, zpow_comm]

/-- The estimate stays below the number over the whole range of exponents. Fifty-nine decimal places
are a little less than 196 binary ones, and twenty-eight a little more than 93. -/
theorem pow_guess_le {l g : ℤ} (low : -1080 ≤ l) (high : l ≤ 1080)
    (guess : 100000 * g ≤ 30103 * l) : (10 : ℚ) ^ (g - 1) ≤ 2 ^ l := by
  rcases le_total 0 l with positive | negative
  · have base : (10 : ℚ) ^ 59 ≤ 2 ^ 196 := by norm_num
    exact zpow_le_of_places (n := 196) (k := 59) (by norm_num) (by omega)
      (zpow_le_zpow_left₀ positive (by positivity) base)
  · have base : (2 : ℚ) ^ 93 ≤ 10 ^ 28 := by norm_num
    refine zpow_le_of_places (n := 93) (k := 28) (by norm_num) (by omega) ?_
    rw [← inv_le_inv₀ (by positivity) (by positivity), ← zpow_neg, ← zpow_neg]
    exact zpow_le_zpow_left₀ (by omega) (by positivity) base

theorem pow_leadingPlace_le {m : ℕ} (shift : ℤ) (ne : m ≠ 0)
    (low : -1080 ≤ Nat.log2 m + shift) (high : Nat.log2 m + shift ≤ 1080) :
    (10 : ℚ) ^ leadingPlace m shift ≤ m * 2 ^ shift := by
  have reached {place : ℤ}
      (h : decide ((commonScale place shift).1 ≤ m * (commonScale place shift).2) = true) :
      (10 : ℚ) ^ place ≤ m * 2 ^ shift := by
    have := (commonScale_le_iff place shift 1 m).1 (by simpa using h)
    simpa using this
  have log : (2 : ℚ) ^ (Nat.log2 m : ℤ) ≤ m := by
    rw [zpow_natCast]
    exact_mod_cast Nat.log2_self_le ne
  -- two places are tested, and the one below them is always reached
  unfold leadingPlace
  dsimp only
  split
  case isTrue h => exact reached h
  case isFalse =>
    split
    case isTrue h => exact reached h
    case isFalse =>
      calc (10 : ℚ) ^ (((Nat.log2 m : ℤ) + shift) * 30103 / 100000 - 1)
          ≤ 2 ^ ((Nat.log2 m : ℤ) + shift) := pow_guess_le low high (by omega)
        _ = 2 ^ (Nat.log2 m : ℤ) * 2 ^ shift := zpow_add₀ (by norm_num) ..
        _ ≤ m * 2 ^ shift := mul_le_mul_of_nonneg_right log (by positivity)

/-! ### Grids -/

/-- A fraction lies in an interval, whose ends are in units of `2 ^ shift`. -/
def RoundingInterval.Holds (i : RoundingInterval) (shift : ℤ) (q : ℚ) : Prop :=
  if i.closed then i.low * 2 ^ shift ≤ q ∧ q ≤ i.high * 2 ^ shift
  else i.low * 2 ^ shift < q ∧ q < i.high * 2 ^ shift

theorem RoundingInterval.Holds.between {i : RoundingInterval} {shift : ℤ} {q : ℚ}
    (h : i.Holds shift q) : i.low * 2 ^ shift ≤ q ∧ q ≤ i.high * 2 ^ shift := by
  unfold Holds at h
  split at h
  · exact h
  · exact ⟨h.1.le, h.2.le⟩

theorem RoundingInterval.holds_of_between {i : RoundingInterval} {shift : ℤ} {q : ℚ}
    (low : i.low * 2 ^ shift < q) (high : q < i.high * 2 ^ shift) : i.Holds shift q := by
  unfold Holds
  split
  · exact ⟨low.le, high.le⟩
  · exact ⟨low, high⟩

/-- The test of the search is membership in the interval. -/
theorem inside_iff (i : RoundingInterval) (shift place : ℤ) (c : ℕ) :
    (if i.closed then
      decide (i.low * (commonScale place shift).2 ≤ c * (commonScale place shift).1) &&
        decide (c * (commonScale place shift).1 ≤ i.high * (commonScale place shift).2)
    else decide (i.low * (commonScale place shift).2 < c * (commonScale place shift).1) &&
        decide (c * (commonScale place shift).1 < i.high * (commonScale place shift).2)) = true ↔
      i.Holds shift (c * 10 ^ place) := by
  unfold RoundingInterval.Holds
  split
  · simp only [Bool.and_eq_true, decide_eq_true_eq, le_commonScale_iff, commonScale_le_iff]
  · simp only [Bool.and_eq_true, decide_eq_true_eq, ← not_le, le_commonScale_iff,
      commonScale_le_iff]

/-- What is found on a grid lies in the interval. -/
theorem holds_of_onGrid? {i : RoundingInterval} {shift place : ℤ} {tie : Tie} {c : ℕ}
    (h : onGrid? i shift place tie = some c) : i.Holds shift (c * 10 ^ place) := by
  unfold onGrid? at h
  dsimp only at h
  split at h
  case h_1 below above =>
    cases h
    split
    · exact (inside_iff ..).1 below
    · exact (inside_iff ..).1 above
  case h_2 below _ =>
    cases h
    exact (inside_iff ..).1 below
  case h_3 _ above =>
    cases h
    exact (inside_iff ..).1 above
  case h_4 => cases h

/-- Something is found on a grid that has the neighbour below or the one above in the interval. -/
theorem exists_onGrid? {i : RoundingInterval} {shift place : ℤ} (tie : Tie)
    (h : ∀ c : ℕ, c * (10 : ℚ) ^ place ≤ i.value * 2 ^ shift →
      i.value * (2 : ℚ) ^ shift < (c + 1 : ℕ) * 10 ^ place →
      i.Holds shift (c * 10 ^ place) ∨ i.Holds shift ((c + 1 : ℕ) * 10 ^ place)) :
    ∃ c, onGrid? i shift place tie = some c := by
  have positive : 0 < (commonScale place shift).1 := by
    obtain ⟨s, positive, ten, -⟩ := cast_commonScale place shift
    have : (0 : ℚ) < (commonScale place shift).1 := by
      rw [ten]
      positivity
    exact_mod_cast this
  have below := (commonScale_le_iff place shift _ i.value).1
    (Nat.div_mul_le_self (i.value * (commonScale place shift).2) (commonScale place shift).1)
  have above := not_le.1 (mt (commonScale_le_iff place shift _ i.value).2
    (not_le.2 (Nat.lt_mul_of_div_lt (Nat.lt_succ_self _) positive)))
  unfold onGrid?
  dsimp only
  split
  case h_1 => exact ⟨_, rfl⟩
  case h_2 => exact ⟨_, rfl⟩
  case h_3 => exact ⟨_, rfl⟩
  case h_4 notBelow notAbove =>
    rcases h _ below above with inside | inside
    · exact absurd ((inside_iff ..).2 inside) (by rw [notBelow]; nofun)
    · exact absurd ((inside_iff ..).2 inside) (by rw [notAbove]; nofun)

/-! ### Finite numbers -/

theorem significand_lt (x : Binary64) : x.significand < 2 ^ 53 := by
  have hidden : hiddenBit = 2 ^ 52 := rfl
  unfold significand
  rw [hidden]
  split <;> omega

/-- Numbers above the least exponent have the leading bit. -/
theorem hiddenBit_le_significand {x : Binary64} (normal : -1074 < x.exponent) :
    2 ^ 52 ≤ x.significand := by
  have hidden : hiddenBit = 2 ^ 52 := rfl
  unfold exponent at normal
  unfold significand
  split at normal
  case isTrue => omega
  case isFalse large =>
    rw [if_neg large]
    omega

theorem exponent_bounds {x : Binary64} (finite : x.isFinite = true) :
    -1074 ≤ x.exponent ∧ x.exponent ≤ 971 := by
  have hidden : hiddenBit = 2 ^ 52 := rfl
  have below : x.magnitude < infinityMagnitude := of_decide_eq_true finite
  unfold infinityMagnitude at below
  unfold exponent
  rw [hidden]
  split <;> omega

/-- The magnitude counts the significands below the number, exponent by exponent. -/
theorem magnitude_eq (x : Binary64) :
    x.magnitude = x.significand + (x.exponent + 1074).toNat * 2 ^ 52 := by
  have hidden : hiddenBit = 2 ^ 52 := rfl
  unfold significand exponent
  rw [hidden]
  split <;> omega

/-- Between the ends of the interval and the number lie at least a quarter of a unit below and half
a unit above; below it is half a unit, too, unless the significand is least. -/
theorem roundingInterval_low (x : Binary64) (positive : x.significand ≠ 0) :
    (x.roundingInterval.low : ℚ) =
      4 * x.significand - if x.significand = 2 ^ 52 ∧ -1074 < x.exponent then 1 else 2 := by
  have hidden : hiddenBit = 2 ^ 52 := rfl
  unfold roundingInterval
  rw [hidden]
  split
  · rw [Nat.cast_sub (by omega)]
    push_cast
    rfl
  · rw [Nat.cast_sub (by omega)]
    push_cast
    rfl

/-! ### The search -/

/-- The number that a decimal stands for. -/
def Decimal.toRat (d : Decimal) : ℚ := d.digits * 10 ^ d.exponent

theorem toRat_dropTrailingZeros (fuel digits : ℕ) (exponent : ℤ) :
    (dropTrailingZeros fuel digits exponent).toRat = digits * 10 ^ exponent := by
  induction fuel generalizing digits exponent with
  | zero => rfl
  | succ fuel ih =>
    rw [dropTrailingZeros]
    split
    case isTrue zeros =>
      have shifted : (digits : ℚ) = (digits / 10 : ℕ) * 10 := by
        exact_mod_cast (Nat.div_mul_cancel (Nat.dvd_of_mod_eq_zero zeros.2)).symm
      calc (dropTrailingZeros fuel (digits / 10) (exponent + 1)).toRat
          = (digits / 10 : ℕ) * 10 ^ (exponent + 1) := ih ..
        _ = (digits / 10 : ℕ) * 10 * 10 ^ exponent := by
          rw [zpow_add_one₀ (by norm_num)]
          ring
        _ = digits * 10 ^ exponent := by rw [← shifted]
    case isFalse => rfl

/-- On the grid of seventeen digits a neighbour of the number rounds to it: the distance of two
neighbours is less than the width of the interval. -/
theorem exists_onGrid?_seventeenth {x : Binary64} (place : ℤ) (tie : Tie)
    (positive : x.significand ≠ 0)
    (fine : (10 : ℚ) ^ (place + 16) ≤ (4 * x.significand : ℕ) * 2 ^ (x.exponent - 2)) :
    ∃ c, onGrid? x.roundingInterval (x.exponent - 2) place tie = some c := by
  have unit : (0 : ℚ) < 2 ^ (x.exponent - 2) := by positivity
  have low := roundingInterval_low x positive
  have high : (x.roundingInterval.high : ℚ) = 4 * x.significand + 2 := by
    simp [roundingInterval]
  have few : (x.significand : ℚ) < 2 ^ 53 := by exact_mod_cast significand_lt x
  rw [zpow_add₀ (by norm_num)] at fine
  push_cast at fine
  set u : ℚ := 2 ^ (x.exponent - 2)
  set step : ℚ := 10 ^ place
  set m : ℚ := (x.significand : ℚ)
  have fine : step * 10 ^ 16 ≤ 4 * m * u := fine
  have coarse : 4 * m * u < 2 ^ 55 * u := by nlinarith
  refine exists_onGrid? tie fun c below above => ?_
  have value : ((x.roundingInterval.value : ℕ) : ℚ) = 4 * m := by simp [roundingInterval, m]
  rw [value] at below above
  push_cast at above ⊢
  -- with both neighbours outside, a step of the grid would be longer than the interval
  by_contra neither
  obtain ⟨notBelow, notAbove⟩ := not_or.1 neither
  have farBelow : (c : ℚ) * step ≤ x.roundingInterval.low * u := by
    by_contra near
    refine notBelow (RoundingInterval.holds_of_between (not_le.1 near) (below.trans_lt ?_))
    rw [high]
    nlinarith
  have farAbove : x.roundingInterval.high * u ≤ (c + 1) * step := by
    by_contra near
    refine notAbove (RoundingInterval.holds_of_between (lt_trans ?_ above) (not_le.1 near))
    rw [low]
    split <;> nlinarith
  rw [low] at farBelow
  rw [high] at farAbove
  -- below a power of two the interval is half as long
  split at farBelow
  case isTrue least =>
    have exact : m = 2 ^ 52 := by
      show (x.significand : ℚ) = 2 ^ 52
      exact_mod_cast least.1
    rw [exact] at fine
    nlinarith
  case isFalse => nlinarith

/-- **The shortest decimal rounds to the number that it is the shortest decimal of.** -/
theorem holds_shortest {x : Binary64} (finite : x.isFinite = true) (positive : x.significand ≠ 0)
    (tie : Tie) : x.roundingInterval.Holds (x.exponent - 2) (x.shortest tie).toRat := by
  obtain ⟨leastExponent, greatestExponent⟩ := exponent_bounds finite
  have four : 4 * x.significand ≠ 0 := by omega
  have logLow : 0 ≤ (Nat.log2 (4 * x.significand) : ℤ) := Int.natCast_nonneg _
  have logHigh : Nat.log2 (4 * x.significand) < 55 :=
    (Nat.log2_lt four).2 (by have := significand_lt x; omega)
  have first := pow_leadingPlace_le (x.exponent - 2) four (by omega) (by omega)
  set place := leadingPlace (4 * x.significand) (x.exponent - 2)
  obtain ⟨last, found⟩ := exists_onGrid?_seventeenth (place - 16) tie positive
    (by rwa [sub_add_cancel])
  unfold shortest
  dsimp only
  cases search : (List.range 17).findSome? fun n : ℕ =>
      (onGrid? x.roundingInterval (x.exponent - 2)
        (leadingPlace x.roundingInterval.value (x.exponent - 2) - n) tie).map fun digits =>
          dropTrailingZeros 20 digits
            (leadingPlace x.roundingInterval.value (x.exponent - 2) - n) with
  | none =>
    -- the search ends on the finest of its grids, where something is always found
    have missing := List.findSome?_eq_none_iff.1 search 16 (by decide)
    rw [Option.map_eq_none_iff] at missing
    exact absurd (found.symm.trans missing) nofun
  | some d =>
    obtain ⟨n, -, hit⟩ := List.exists_of_findSome?_eq_some search
    obtain ⟨c, inside, rfl⟩ := Option.map_eq_some_iff.1 hit
    rw [Option.getD_some, toRat_dropTrailingZeros]
    exact holds_of_onGrid? inside

end Clausal.Binary64
