import Clausal.Number.Binary64

/-!
# JSON values

A number is an integer or a binary64 number, as its spelling says. The members of an object keep
the order in which they are listed; an object that stands for a set of fields lists a key once.
-/

namespace Clausal

/-- A JSON number: integers and floating-point numbers are told apart. -/
inductive Json.Number
  | int (i : Int)
  | float (x : Binary64)
deriving DecidableEq, Repr

inductive Json
  | null
  | bool (b : Bool)
  | num (n : Json.Number)
  | str (s : String)
  | arr (items : List Json)
  | obj (members : List (String × Json))

namespace Json

/-- A number for a finite `x`; JSON has no spelling for the others. -/
def ofFloat (x : Binary64) : Json := if x.isFinite then .num (.float x) else .null

def ofInt (i : Int) : Json := .num (.int i)

def ofNat (n : Nat) : Json := .num (.int n)

def ofStrings (items : List String) : Json := .arr (items.map .str)

/-- A text or null. -/
def ofString? (s : Option String) : Json := s.elim .null .str

/-- The member `key` alone when there is a value, and no member otherwise. -/
def member? (key : String) (value : Option Json) : List (String × Json) :=
  value.elim [] fun v => [(key, v)]

end Json

end Clausal
