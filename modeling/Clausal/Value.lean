import Clausal.Json.Decode
import Clausal.Text.Blank

/-!
# Values and datatypes

A value is a truth value, an integer of 64 bits, a floating-point number or a text. Datatypes are
names; the four known ones are checked, any other name admits every value.
-/

namespace Clausal

/-- A scalar that records and constants carry. -/
inductive Value
  | bool (b : Bool)
  | int (i : Int64)
  | float (x : Binary64)
  | str (s : String)
deriving DecidableEq

/-- Field values by field name. -/
abbrev FieldMap := SortedMap String Value

namespace Datatype

/-- The form in which datatypes are compared: without blanks around it and in small letters. -/
def normalize (datatype : String) : String := Text.lower (Text.trim datatype)

/-- The datatypes whose values are checked. -/
def known : List String := ["string", "int", "float", "bool"]

/-- The datatype of an argument that names none. -/
def default : String := "string"

def isKnown (datatype : String) : Bool := known.contains (normalize datatype)

/-- Whether two names are of the same datatype. -/
def agree (a b : String) : Bool := normalize a == normalize b

end Datatype

namespace Value

/-- Whether a value belongs to a datatype. An integer is also a floating-point number. -/
def fits (v : Value) (datatype : String) : Bool :=
  let name := Datatype.normalize datatype
  if name = "string" then v matches .str _
  else if name = "int" then v matches .int _
  else if name = "float" then v matches .int _ | .float _
  else if name = "bool" then v matches .bool _
  else true

/-- The known datatype of a value. -/
def datatype : Value → String
  | .bool _ => "bool"
  | .int _ => "int"
  | .float _ => "float"
  | .str _ => "string"

def asText? : Value → Option String
  | .str s => some s
  | _ => none

/-- The JSON of a value; a number that is not finite becomes null. -/
def toJson : Value → Json
  | .bool b => .bool b
  | .int i => .ofInt i.toInt
  | .float x => .ofFloat x
  | .str s => .str s

/-- A value as messages show it. -/
def display : Value → String
  | .bool b => if b then "true" else "false"
  | .int i => String.ofList (Json.spellInt i.toInt)
  | .float x => x.text .value
  | .str s => Text.quote s

/-- The value of a JSON integer: beyond the range of integers it is a floating-point number. -/
def ofJsonInt (i : Int) : Value :=
  if Int64.minValue.toInt ≤ i ∧ i ≤ Int64.maxValue.toInt then .int (.ofInt i) else .float (.ofInt i)

def decode : Decoder Value
  | _, .bool b => .ok (.bool b)
  | _, .num (.int i) => .ok (ofJsonInt i)
  | _, .num (.float x) => .ok (.float x)
  | _, .str s => .ok (.str s)
  | _, d => .error (d.mismatch "a scalar")

end Value

namespace FieldMap

def toJson (m : FieldMap) : Json := .obj (m.mapValues Value.toJson).entries

def decode : Decoder FieldMap := Decode.map Value.decode

end FieldMap

end Clausal
