import Clausal.Json.Spelling

/-!
# JSON over several lines, and on one line

The indented layout puts each item and member on a line of its own, two blanks further in than the
bracket around it; an empty array or object is closed at once. The compact layout has no blanks.
Both keep the order of the members.
-/

namespace Clausal.Json

/-- A new line that is indented by `depth` steps. -/
def newLine (depth : Nat) : List Char := '\n' :: List.replicate (2 * depth) ' '

/-- Entries between brackets, each on its own line. -/
def bracketLines (opening closing : Char) (depth : Nat) : List (List Char) → List Char
  | [] => [opening, closing]
  | entries =>
    opening :: commaSeparated (entries.map (newLine (depth + 1) ++ ·)) ++ newLine depth ++ [closing]

mutual

/-- The characters of the indented layout of a value that stands `depth` steps in. -/
def indentedChars (depth : Nat) : Json → List Char
  | .null => spellNull
  | .bool b => spellBool b
  | .num n => spellNumber n
  | .str s => spellString s
  | .arr items => bracketLines '[' ']' depth (indentedItems (depth + 1) items)
  | .obj members => bracketLines '\x7b' '\x7d' depth (indentedMembers (depth + 1) members)

def indentedItems (depth : Nat) : List Json → List (List Char)
  | [] => []
  | item :: rest => indentedChars depth item :: indentedItems depth rest

def indentedMembers (depth : Nat) : List (String × Json) → List (List Char)
  | [] => []
  | (key, value) :: rest =>
    (spellString key ++ ':' :: ' ' :: indentedChars depth value) :: indentedMembers depth rest

end

/-- The indented text of a value. -/
def indented (j : Json) : String := String.ofList (indentedChars 0 j)

mutual

/-- The characters of the compact layout. -/
def compactChars : Json → List Char
  | .null => spellNull
  | .bool b => spellBool b
  | .num n => spellNumber n
  | .str s => spellString s
  | .arr items => '[' :: commaSeparated (compactItems items) ++ [']']
  | .obj members => '\x7b' :: commaSeparated (compactMembers members) ++ ['\x7d']

def compactItems : List Json → List (List Char)
  | [] => []
  | item :: rest => compactChars item :: compactItems rest

def compactMembers : List (String × Json) → List (List Char)
  | [] => []
  | (key, value) :: rest => (spellString key ++ ':' :: compactChars value) :: compactMembers rest

end

/-- The text of a value on one line. -/
def compact (j : Json) : String := String.ofList j.compactChars

end Clausal.Json
