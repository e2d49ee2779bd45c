import Clausal.Number.Shortest
import Clausal.Text.Basic

/-!
# Spellings of binary64 numbers

All spellings use the shortest digits that read back. They differ in which exponents are written
positionally and in where a fraction or a sign is kept: see `Style.json`, `Style.value`,
`Style.plain` and `Style.term`.
-/

namespace Clausal.Binary64

/-- How the digits of a number are laid out. The exponent is that of the first digit. -/
structure Style where
  /-- The least exponent that is written positionally, when there is a least one. -/
  lowest : Option Int
  /-- The greatest exponent that is written positionally, when there is a greatest one. -/
  highest : Option Int
  /-- Whether a positional integer ends in `.0`. -/
  integerFraction : Bool
  /-- Whether a single digit before an exponent is followed by `.0`. -/
  exponentFraction : Bool
  /-- Whether a positive exponent has a plus sign. -/
  plus : Bool
  tie : Tie

namespace Style

/-- Numbers in JSON. -/
def json : Style := ⟨some (-5), some 15, true, false, true, .toEven⟩

/-- Numbers in messages about values. -/
def value : Style := ⟨some (-4), some 15, true, false, false, .up⟩

/-- Numbers in messages about probabilities: no exponent and no empty fraction. -/
def plain : Style := ⟨none, none, false, false, false, .up⟩

/-- Numbers in programs: there is always a decimal point. -/
def term : Style := ⟨some (-4), some 15, true, true, false, .up⟩

/-- Whether numbers whose first digit has this exponent are written positionally. -/
def isPositional (style : Style) (exponent : Int) : Bool :=
  style.lowest.all (· ≤ exponent) && style.highest.all (exponent ≤ ·)

/-- An exponent with its sign. -/
def exponentText (style : Style) (exponent : Int) : List Char :=
  'e' :: (if exponent < 0 then ['-'] else if style.plus then ['+'] else []) ++
    Nat.toDigits 10 exponent.natAbs

/-- Digits with a point after the one of exponent zero; `exponent` is that of the first digit. -/
def positional (style : Style) (digits : List Char) (exponent : Int) : List Char :=
  if exponent < 0 then
    '0' :: '.' :: (List.replicate (-exponent - 1).toNat '0' ++ digits)
  else
    let count := exponent.toNat + 1
    if digits.length ≤ count then
      digits ++ List.replicate (count - digits.length) '0' ++
        (if style.integerFraction then ['.', '0'] else [])
    else digits.take count ++ '.' :: digits.drop count

/-- Digits with a point after the first one and an exponent. -/
def scientific (style : Style) (digits : List Char) (exponent : Int) : List Char :=
  digits.take 1 ++
    (if 1 < digits.length then '.' :: digits.drop 1
     else if style.exponentFraction then ['.', '0'] else []) ++
    style.exponentText exponent

/-- A number without its sign. -/
def unsigned (style : Style) (x : Binary64) : List Char :=
  if x.isNaN then ['N', 'a', 'N']
  else if !x.isFinite then ['i', 'n', 'f']
  else if x.magnitude = 0 then style.positional ['0'] 0
  else
    let d := x.shortest style.tie
    let digits := Nat.toDigits 10 d.digits
    let exponent := d.exponent + digits.length - 1
    if style.isPositional exponent then style.positional digits exponent
    else style.scientific digits exponent

/-- The characters of a number. -/
def spell (style : Style) (x : Binary64) : List Char :=
  if x.isNegative && !x.isNaN then '-' :: style.unsigned x else style.unsigned x

end Style

/-- The number as a text in the given style. -/
def text (x : Binary64) (style : Style) : String := String.ofList (style.spell x)

end Clausal.Binary64
