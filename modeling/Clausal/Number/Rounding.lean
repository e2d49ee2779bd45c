import Clausal.Number.Binary64

/-!
# From decimals to binary64

A decimal `digits * 10 ^ exponent` becomes the nearest binary64 number; of two that are equally
near, the one with an even significand.
-/

namespace Clausal.Binary64

/-- The integer nearest to `num / den`, of two the even one. -/
def roundQuotient (num den : Nat) : Nat :=
  let below := num / den
  let twice := 2 * (num % den)
  if twice < den then below
  else if den < twice then below + 1
  else below + below % 2

/-- `(num / den) / 2 ^ shift` as a fraction of natural numbers. -/
def scaleDown (num den : Nat) (shift : Int) : Nat × Nat :=
  if shift < 0 then (num * Nat.pow 2 (-shift).toNat, den) else (num, den * Nat.pow 2 shift.toNat)

/-- The least exponent at which `num / den` is a significand of at most 53 bits. -/
def exponentOf (num den : Nat) : Int :=
  let guess : Int := max (-1074) ((Nat.log2 num : Int) - Nat.log2 den - 53)
  let (n, d) := scaleDown num den guess
  if n / d < 2 * hiddenBit then guess else guess + 1

/-- The magnitude nearest to the positive fraction `num / den`, that of infinity when it is too
large. -/
def magnitudeOfRatio (num den : Nat) : Nat :=
  let shift := exponentOf num den
  let (n, d) := scaleDown num den shift
  min infinityMagnitude (roundQuotient n d + (shift + 1074).toNat * hiddenBit)

/-- Decimal digits of a natural number, none for zero. -/
def digitCount (n : Nat) : Nat := if n = 0 then 0 else (Nat.toDigits 10 n).length

/-- The magnitude nearest to `digits * 10 ^ exponent`. Exponents far outside the range of finite
numbers give zero or infinity without computing the power. -/
def magnitudeOfDecimal (digits : Nat) (exponent : Int) : Nat :=
  if digits = 0 then 0
  else if 400 < digitCount digits + exponent then infinityMagnitude
  else if digitCount digits + exponent < -400 then 0
  else if exponent < 0 then magnitudeOfRatio digits (Nat.pow 10 (-exponent).toNat)
  else magnitudeOfRatio (digits * Nat.pow 10 exponent.toNat) 1

/-- The number nearest to `digits * 10 ^ exponent`, with a sign. -/
def ofDecimal (negative : Bool) (digits : Nat) (exponent : Int) : Binary64 :=
  ofMagnitude negative (magnitudeOfDecimal digits exponent)

/-- The number nearest to an integer. -/
def ofInt (i : Int) : Binary64 := ofDecimal (i < 0) i.natAbs 0

end Clausal.Binary64
