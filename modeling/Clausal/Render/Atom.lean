import Clausal.Render.Error

/-!
# Atoms and constants of the target languages

A text becomes an atom: as it is when it is a name in small letters, and between single quotes
otherwise, with a backslash before each quote and backslash.
-/

namespace Clausal

/-- Whether characters make up an atom that needs no quotes. -/
def isBareAtom : List Char → Bool
  | [] => false
  | c :: rest => c.isLower && rest.all fun d => d.isAlphanum || d = '_'

/-- A character between the quotes of an atom. -/
def quoteAtomChar (c : Char) : List Char := if c = '\\' ∨ c = '\x27' then ['\\', c] else [c]

/-- An atom between quotes. -/
def quoteAtom (cs : List Char) : List Char := '\x27' :: cs.flatMap quoteAtomChar ++ ['\x27']

/-- A constant as a term. Numbers that are not finite have no term. -/
def Value.toTerm : Value → Except RenderError String
  | .bool b => .ok (if b then "true" else "false")
  | .int i => .ok (String.ofList (Json.spellInt i.toInt))
  | .float x => if x.isFinite then .ok (x.text .term) else .error (.nonFiniteConstant x)
  | .str s => .ok (if isBareAtom s.toList then s else String.ofList (quoteAtom s.toList))

/-- Texts with a comma and a blank between neighbours. -/
def commaList (items : List String) : String := String.intercalate ", " items

/-- A name applied to arguments, or the name alone when there are none. -/
def compound (name : String) (args : List String) : String :=
  if args.isEmpty then name else name ++ "(" ++ commaList args ++ ")"

end Clausal
