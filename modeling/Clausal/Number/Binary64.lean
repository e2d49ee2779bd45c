/-!
# Binary floating-point numbers of 64 bits

A number is its bit pattern, so that two numbers are equal when no text, digest or comparison can
tell them apart. A finite number is `significand * 2 ^ exponent` with the sign of the top bit.
-/

namespace Clausal

/-- A binary64 number, given by its bits. -/
structure Binary64 where
  bits : UInt64
deriving DecidableEq, Repr, Inhabited

namespace Binary64

def signBit : Nat := Nat.pow 2 63

/-- The leading bit of a significand of 53 bits, which the bits of the number leave out. -/
def hiddenBit : Nat := Nat.pow 2 52

/-- The bits below the sign, as a number. They grow with the magnitude. -/
def magnitude (x : Binary64) : Nat := x.bits.toNat % signBit

/-- The bits below the sign of an infinity. Finite numbers lie below it, those above it are NaN. -/
def infinityMagnitude : Nat := 0x7FF0000000000000

/-- The bits below the sign of one. -/
def oneMagnitude : Nat := 0x3FF0000000000000

/-- Whether the sign bit is set. -/
def isNegative (x : Binary64) : Bool := signBit ≤ x.bits.toNat

/-- Not a number. -/
def isNaN (x : Binary64) : Bool := infinityMagnitude < x.magnitude

/-- Neither infinite nor NaN. -/
def isFinite (x : Binary64) : Bool := x.magnitude < infinityMagnitude

/-- A number that lies from zero to one, both included; the negative zero is a zero. -/
def inUnitInterval (x : Binary64) : Bool :=
  x.magnitude == 0 || (!x.isNegative && x.magnitude ≤ oneMagnitude)

/-- The number with the given sign and the given bits below it. -/
def ofMagnitude (negative : Bool) (magnitude : Nat) : Binary64 :=
  ⟨UInt64.ofNat (magnitude + if negative then signBit else 0)⟩

def one : Binary64 := ofMagnitude false oneMagnitude

/-- Plus or minus infinity. -/
def infinity (negative : Bool) : Binary64 := ofMagnitude negative infinityMagnitude

/-- The NaN without sign or payload. -/
def nan : Binary64 := ofMagnitude false 0x7FF8000000000000

/-- The integer factor of a finite number. -/
def significand (x : Binary64) : Nat :=
  if x.magnitude < hiddenBit then x.magnitude else hiddenBit + x.magnitude % hiddenBit

/-- The power of two that the significand of a finite number is multiplied by. -/
def exponent (x : Binary64) : Int :=
  if x.magnitude < hiddenBit then -1074 else (x.magnitude / hiddenBit : Nat) - 1075

end Binary64

end Clausal
