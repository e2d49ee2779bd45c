import Clausal.Json.Layout
import Clausal.Json.Reader

/-!
# Layouts of JSON

The indented and the compact layout differ in the blanks between the leaves only. `spread` puts
arbitrary blanks there, and both layouts are cases of it (`indentedChars_eq_spread`,
`compactChars_eq_spread`).
-/

namespace Clausal.Json

open Document (isSpace)

/-- The blanks of a layout. -/
structure Gaps where
  /-- What stands before each entry and before the closing bracket, by depth. -/
  line : Nat → List Char
  /-- What stands after a colon. -/
  colon : List Char
  line_blank : ∀ depth, ∀ c ∈ line depth, isSpace c = true
  colon_blank : ∀ c ∈ colon, isSpace c = true

namespace Gaps

/-- The blanks of the indented layout. -/
def indented : Gaps where
  line := newLine
  colon := [' ']
  line_blank depth c hc := by
    rcases List.mem_cons.1 hc with rfl | hc
    · rfl
    · rw [List.eq_of_mem_replicate hc]
      rfl
  colon_blank := List.forall_mem_singleton.2 rfl

/-- The compact layout has no blanks. -/
def none : Gaps := ⟨fun _ => [], [], nofun, nofun⟩

/-- Entries between brackets. -/
def bracket (g : Gaps) (opening closing : Char) (depth : Nat) : List (List Char) → List Char
  | [] => [opening, closing]
  | entries =>
    opening :: commaSeparated (entries.map (g.line (depth + 1) ++ ·)) ++ g.line depth ++ [closing]

end Gaps

mutual

/-- The characters of a value with the given blanks. -/
def spread (g : Gaps) (depth : Nat) : Json → List Char
  | .null => spellNull
  | .bool b => spellBool b
  | .num n => spellNumber n
  | .str s => spellString s
  | .arr items => g.bracket '[' ']' depth (spreadItems g (depth + 1) items)
  | .obj members => g.bracket '\x7b' '\x7d' depth (spreadMembers g (depth + 1) members)

def spreadItems (g : Gaps) (depth : Nat) : List Json → List (List Char)
  | [] => []
  | item :: rest => spread g depth item :: spreadItems g depth rest

def spreadMembers (g : Gaps) (depth : Nat) : List (String × Json) → List (List Char)
  | [] => []
  | (key, value) :: rest =>
    (spellString key ++ ':' :: (g.colon ++ spread g depth value)) :: spreadMembers g depth rest

end

theorem bracketLines_eq (opening closing : Char) (depth : Nat) (entries : List (List Char)) :
    bracketLines opening closing depth entries =
      Gaps.indented.bracket opening closing depth entries := by
  cases entries <;> rfl

theorem bracket_none (opening closing : Char) (depth : Nat) (entries : List (List Char)) :
    Gaps.none.bracket opening closing depth entries =
      opening :: commaSeparated entries ++ [closing] := by
  cases entries with
  | nil => rfl
  | cons entry rest => simp [Gaps.bracket, Gaps.none]

mutual

theorem indentedChars_eq_spread (depth : Nat) (j : Json) :
    indentedChars depth j = spread .indented depth j := by
  match j with
  | .null | .bool _ | .num _ | .str _ => rfl
  | .arr items =>
    rw [indentedChars, spread, indentedItems_eq_spreadItems, bracketLines_eq]
  | .obj members =>
    rw [indentedChars, spread, indentedMembers_eq_spreadMembers, bracketLines_eq]

theorem indentedItems_eq_spreadItems (depth : Nat) (items : List Json) :
    indentedItems depth items = spreadItems .indented depth items := by
  match items with
  | [] => rfl
  | item :: rest =>
    rw [indentedItems, spreadItems, indentedChars_eq_spread, indentedItems_eq_spreadItems]

theorem indentedMembers_eq_spreadMembers (depth : Nat) (members : List (String × Json)) :
    indentedMembers depth members = spreadMembers .indented depth members := by
  match members with
  | [] => rfl
  | (key, value) :: rest =>
    rw [indentedMembers, spreadMembers, indentedChars_eq_spread, indentedMembers_eq_spreadMembers]
    rfl

end

mutual

theorem compactChars_eq_spread (depth : Nat) (j : Json) :
    compactChars j = spread .none depth j := by
  match j with
  | .null | .bool _ | .num _ | .str _ => rfl
  | .arr items =>
    rw [compactChars, spread, compactItems_eq_spreadItems (depth + 1), bracket_none]
  | .obj members =>
    rw [compactChars, spread, compactMembers_eq_spreadMembers (depth + 1), bracket_none]

theorem compactItems_eq_spreadItems (depth : Nat) (items : List Json) :
    compactItems items = spreadItems .none depth items := by
  match items with
  | [] => rfl
  | item :: rest =>
    rw [compactItems, spreadItems, compactChars_eq_spread depth, compactItems_eq_spreadItems depth]

theorem compactMembers_eq_spreadMembers (depth : Nat) (members : List (String × Json)) :
    compactMembers members = spreadMembers .none depth members := by
  match members with
  | [] => rfl
  | (key, value) :: rest =>
    rw [compactMembers, spreadMembers, compactChars_eq_spread depth,
      compactMembers_eq_spreadMembers depth]
    rfl

end

end Clausal.Json
