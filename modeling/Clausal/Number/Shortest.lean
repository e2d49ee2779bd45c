import Clausal.Number.Binary64

/-!
# The fewest decimal digits that read back

The reals that round to a finite number form an interval around it, with its ends when the
significand is even. For one digit, two digits and so on, the two neighbours of the number on that
decimal grid are tried; the first grid with a neighbour in the interval wins, and of two neighbours
there the nearer one.
-/

namespace Clausal.Binary64

/-- How the choice goes between two decimals that are equally near. -/
inductive Tie
  | toEven
  | up
deriving DecidableEq, Repr

/-- A positive decimal `digits * 10 ^ exponent`. -/
structure Decimal where
  digits : Nat
  exponent : Int
deriving DecidableEq, Repr

/-- A number between the ends of the interval of reals that round to it, all in one unit. -/
structure RoundingInterval where
  low : Nat
  value : Nat
  high : Nat
  closed : Bool

/-- Four times the number and the ends of its interval, in units of `2 ^ (exponent - 2)`. -/
def roundingInterval (x : Binary64) : RoundingInterval where
  low := 4 * x.significand - if x.significand = hiddenBit ∧ -1074 < x.exponent then 1 else 2
  value := 4 * x.significand
  high := 4 * x.significand + 2
  closed := x.significand % 2 = 0

/-- Factors `(a, b)` such that `c * 10 ^ place` compares with `m * 2 ^ shift` as `c * a` with
`m * b`. -/
def commonScale (place shift : Int) : Nat × Nat :=
  (Nat.pow 10 place.toNat * Nat.pow 2 (-shift).toNat,
    Nat.pow 2 shift.toNat * Nat.pow 10 (-place).toNat)

/-- The exponent of the first decimal digit of `m * 2 ^ shift`, for `m` not zero. -/
def leadingPlace (m : Nat) (shift : Int) : Int :=
  let guess : Int := ((Nat.log2 m : Int) + shift) * 30103 / 100000
  let reaches (place : Int) : Bool :=
    let (a, b) := commonScale place shift
    a ≤ m * b
  if reaches (guess + 1) then guess + 1 else if reaches guess then guess else guess - 1

/-- The decimal of the interval on the grid of multiples of `10 ^ place` that is nearest to the
number, when there is one. -/
def onGrid? (i : RoundingInterval) (shift place : Int) (tie : Tie) : Option Nat :=
  let (a, b) := commonScale place shift
  let inside (c : Nat) : Bool :=
    if i.closed then i.low * b ≤ c * a && c * a ≤ i.high * b
    else i.low * b < c * a && c * a < i.high * b
  let below := i.value * b / a
  let twice := 2 * (i.value * b % a)
  let belowIsNearer : Bool := twice < a || (twice == a && tie == .toEven && below % 2 == 0)
  match inside below, inside (below + 1) with
  | true, true => some (if belowIsNearer then below else below + 1)
  | true, false => some below
  | false, true => some (below + 1)
  | false, false => none

/-- A decimal without trailing zeros in its digits. -/
def dropTrailingZeros : Nat → Nat → Int → Decimal
  | 0, digits, exponent => ⟨digits, exponent⟩
  | fuel + 1, digits, exponent =>
    if digits ≠ 0 ∧ digits % 10 = 0 then dropTrailingZeros fuel (digits / 10) (exponent + 1)
    else ⟨digits, exponent⟩

/-- The first grid, from one digit to seventeen, that holds a decimal of the interval. -/
def shortest (x : Binary64) (tie : Tie) : Decimal :=
  let interval := x.roundingInterval
  let shift := x.exponent - 2
  let first := leadingPlace interval.value shift
  let found := (List.range 17).findSome? fun (n : Nat) =>
    (onGrid? interval shift (first - n) tie).map fun digits =>
      dropTrailingZeros 20 digits (first - n)
  found.getD ⟨0, 0⟩

end Clausal.Binary64
