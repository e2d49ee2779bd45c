import Clausal.Json.Basic
import Clausal.SortedMap

/-!
# JSON as it was written

A document keeps what a value does not: members whose keys repeat, and parts that are written by
the grammar but stand for no value. Such a part spoils only what looks at it.
-/

namespace Clausal

inductive Document.Fault
  /-- A number beyond the range of binary64. -/
  | numberTooLarge
  /-- A string with half of a surrogate pair. -/
  | unpairedSurrogate
  /-- An array or object inside too many others. -/
  | tooDeep
deriving DecidableEq, Repr

/-- A JSON text by its structure. -/
inductive Document
  | null
  | bool (b : Bool)
  | num (n : Json.Number)
  | str (s : String)
  | arr (items : List Document)
  | obj (members : List (String × Document))
  | fault (why : Document.Fault)

namespace Document

/-- How many arrays and objects may lie inside one another. -/
def depthLimit : Nat := 127

mutual

def ofJson : Json → Document
  | .null => .null
  | .bool b => .bool b
  | .num n => .num n
  | .str s => .str s
  | .arr items => .arr (ofItems items)
  | .obj members => .obj (ofMembers members)

def ofItems : List Json → List Document
  | [] => []
  | item :: rest => ofJson item :: ofItems rest

def ofMembers : List (String × Json) → List (String × Document)
  | [] => []
  | (key, value) :: rest => (key, ofJson value) :: ofMembers rest

end

mutual

/-- The value of a document without faulty parts. Members come in the order of their keys, and of
two with one key the later one counts. -/
def value? : Document → Option Json
  | .null => some .null
  | .bool b => some (.bool b)
  | .num n => some (.num n)
  | .str s => some (.str s)
  | .arr items => (itemValues? items).map .arr
  | .obj members => (memberValues? members).map fun ms => .obj (SortedMap.ofList ms).entries
  | .fault _ => none

def itemValues? : List Document → Option (List Json)
  | [] => some []
  | item :: rest => do return (← value? item) :: (← itemValues? rest)

def memberValues? : List (String × Document) → Option (List (String × Json))
  | [] => some []
  | (key, value) :: rest => do return (key, ← value? value) :: (← memberValues? rest)

end

mutual

/-- Whether no part of a document is faulty. -/
def isSound : Document → Bool
  | .arr items => areSound items
  | .obj members => haveSoundValues members
  | .fault _ => false
  | _ => true

def areSound : List Document → Bool
  | [] => true
  | item :: rest => isSound item && areSound rest

def haveSoundValues : List (String × Document) → Bool
  | [] => true
  | (_, value) :: rest => isSound value && haveSoundValues rest

end

mutual

/-- The number of arrays and objects that lie inside one another at the deepest place. -/
def height : Document → Nat
  | .arr items => heightOfItems items + 1
  | .obj members => heightOfMembers members + 1
  | _ => 0

def heightOfItems : List Document → Nat
  | [] => 0
  | item :: rest => max (height item) (heightOfItems rest)

def heightOfMembers : List (String × Document) → Nat
  | [] => 0
  | (_, value) :: rest => max (height value) (heightOfMembers rest)

end

end Document

end Clausal
