import Clausal.Json.Spelling

/-!
# Canonical JSON

One text per value: no blanks, and the members of every object in the order of their keys.
-/

namespace Clausal.Json

/-- Pairs in the order of their keys. -/
def sortByKey {α : Type} (pairs : List (String × α)) : List (String × α) :=
  pairs.mergeSort fun a b => !(compare b.1 a.1).isLT

/-- One member of an object. -/
def canonicalMember (m : String × List Char) : List Char := spellString m.1 ++ ':' :: m.2

mutual

/-- The characters of the canonical text. -/
def canonicalChars : Json → List Char
  | .null => spellNull
  | .bool b => spellBool b
  | .num n => spellNumber n
  | .str s => spellString s
  | .arr items => '[' :: commaSeparated (canonicalItems items) ++ [']']
  | .obj members =>
    '\x7b' :: commaSeparated ((sortByKey (canonicalMembers members)).map canonicalMember) ++
      ['\x7d']

def canonicalItems : List Json → List (List Char)
  | [] => []
  | item :: rest => canonicalChars item :: canonicalItems rest

def canonicalMembers : List (String × Json) → List (String × List Char)
  | [] => []
  | (key, value) :: rest => (key, canonicalChars value) :: canonicalMembers rest

end

/-- The canonical text of a value. -/
def canonical (j : Json) : String := String.ofList j.canonicalChars

end Clausal.Json
