import Clausal.Json.Basic
import Clausal.Number.Style

/-!
# Spelling of JSON leaves

How literals, numbers and strings are written, whatever the layout around them.
-/

namespace Clausal.Json

/-- The four hex digits of a control character. -/
def controlCode (n : Nat) : List Char :=
  let digits := Nat.toDigits 16 n
  List.replicate (4 - digits.length) '0' ++ digits

/-- One character inside a string: controls, the quote and the backslash are escaped. -/
def spellChar (c : Char) : List Char :=
  if c = '"' then ['\\', '"']
  else if c = '\\' then ['\\', '\\']
  else if c.toNat = 8 then ['\\', 'b']
  else if c = '\t' then ['\\', 't']
  else if c = '\n' then ['\\', 'n']
  else if c.toNat = 12 then ['\\', 'f']
  else if c = '\r' then ['\\', 'r']
  else if c.toNat < 32 then '\\' :: 'u' :: controlCode c.toNat
  else [c]

/-- A string between its quotes. -/
def spellString (s : String) : List Char := '"' :: s.toList.flatMap spellChar ++ ['"']

/-- An integer, with a sign only when it is negative. -/
def spellInt (i : Int) : List Char :=
  if i < 0 then '-' :: Nat.toDigits 10 i.natAbs else Nat.toDigits 10 i.natAbs

/-- A number; a floating-point number always has a fraction or an exponent. -/
def spellNumber : Number → List Char
  | .int i => spellInt i
  | .float x => Binary64.Style.json.spell x

def spellBool (b : Bool) : List Char := (if b then "true" else "false").toList

def spellNull : List Char := "null".toList

/-- Items one after the other, a comma between neighbours. -/
def commaSeparated : List (List Char) → List Char
  | [] => []
  | [item] => item
  | item :: rest => item ++ ',' :: commaSeparated rest

end Clausal.Json
