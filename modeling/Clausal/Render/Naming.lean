import Clausal.Render.Error
import Clausal.SortedMap

/-!
# Names of variables

A variable of the target languages starts with an ASCII capital or an underscore and goes on with
ASCII letters, digits and underscores. A namer takes names of variables to such variables, or
refuses them.
-/

namespace Clausal

/-- A character that a variable may have after its first one. -/
def isVariableChar (c : Char) : Bool := c.isAlphanum || c = '_'

/-- Whether characters make up a variable. -/
def isVariable : List Char → Bool
  | [] => false
  | c :: rest => (c.isUpper || c = '_') && rest.all isVariableChar

/-- A way to name variables; the prefix is for the mode that uses one. -/
structure Namer where
  mode : NamingMode
  varPrefix : String
deriving DecidableEq

namespace Namer

/-- Characters with the first one made a capital. -/
def capitalize : List Char → List Char
  | [] => []
  | c :: rest => c.toUpper :: rest

/-- Characters made a variable: others are replaced by underscores, a digit at the start is kept
behind `V_`, and nothing at all becomes `V`. -/
def sanitize (name : List Char) : List Char :=
  match (Text.trimChars name).map fun c => if isVariableChar c then c else '_' with
  | [] => ['V']
  | c :: rest => if c.isDigit then 'V' :: '_' :: c :: rest else capitalize (c :: rest)

/-- What a name becomes, whether or not it is a variable. -/
def transform (n : Namer) (name : List Char) : List Char :=
  match n.mode with
  | .error => name
  | .sanitize => sanitize name
  | .prefixed => n.varPrefix.toList ++ name
  | .capitalize => capitalize name

def render (n : Namer) (name : String) : Except RenderError String :=
  let rendered := n.transform name.toList
  if isVariable rendered then .ok (String.ofList rendered)
  else .error (.invalidVariable name n.mode)

/-- The variables for further names, with the name that each is for. -/
def renderInto (n : Namer) (seen : SortedMap String String) :
    List String → Except RenderError (SortedMap String String)
  | [] => .ok seen
  | name :: rest => do
    let rendered ← n.render name
    match seen.get? rendered with
    | some first =>
      if first = name then renderInto n seen rest
      else .error (.variableCollision first name rendered n.mode)
    | none => renderInto n (seen.insert rendered name) rest

/-- The variables for the names of one clause, with the name that each is for. Different names have
to become different variables. -/
def renderAll (n : Namer) (names : List String) : Except RenderError (SortedMap String String) :=
  n.renderInto .empty names

end Namer

end Clausal
