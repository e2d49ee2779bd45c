import Clausal.Json.Reader
import Clausal.Json.Spelling
import Clausal.Text.Basic
import Clausal.Text.Quoted

/-!
# Decoding documents

A decoder takes a document to a value of the library or says why it cannot. Records are objects
with declared fields, or arrays of the fields in their declared order; a field that is not declared
is skipped unless the record is closed. Variants are told apart by a tag.
-/

namespace Clausal

/-- Why a document is not the value that was asked for. -/
inductive DecodeError
  | wrongType (found expected : String)
  | wrongValue (found expected : String)
  | wrongLength (found : Nat) (expected : String)
  | unknownVariant (name : String) (known : List String)
  | unknownField (name : String) (known : List String)
  | missingField (name : String)
  | duplicateField (name : String)
  | faulty (why : Document.Fault)
deriving DecidableEq

namespace DecodeError

/-- A name between backticks. -/
def tick (name : String) : String := s!"`{name}`"

def oneOf (what : String) : List String → String
  | [] => s!"there are no {what}s"
  | [a] => "expected " ++ tick a
  | [a, b] => "expected " ++ tick a ++ " or " ++ tick b
  | names => "expected one of " ++ String.intercalate ", " (names.map tick)

def faultText : Document.Fault → String
  | .numberTooLarge => "number out of range"
  | .unpairedSurrogate => "lone leading surrogate in hex escape"
  | .tooDeep => "recursion limit exceeded"

def message : DecodeError → String
  | wrongType found expected => s!"invalid type: {found}, expected {expected}"
  | wrongValue found expected => s!"invalid value: {found}, expected {expected}"
  | wrongLength found expected => s!"invalid length {Text.decimal found}, expected {expected}"
  | unknownVariant name known => s!"unknown variant `{name}`, " ++ oneOf "variant" known
  | unknownField name known => s!"unknown field `{name}`, " ++ oneOf "field" known
  | missingField name => s!"missing field `{name}`"
  | duplicateField name => s!"duplicate field `{name}`"
  | faulty why => faultText why

end DecodeError

inductive Json.TextError
  /-- The text breaks the grammar of JSON. -/
  | notJson
  /-- The text is JSON for something else. -/
  | otherShape (why : DecodeError)
deriving DecidableEq

def Json.TextError.message : Json.TextError → String
  | notJson => "not a JSON text"
  | otherShape why => why.message

/-- How a document is taken in. The parts of a tagged value are held back until the tag is known;
in them a tag may be given by its place in the list of tags, and an empty object stands for null. -/
inductive Reading
  | direct
  | heldBack
deriving DecidableEq

/-- A way to take a value from a document. -/
abbrev Decoder (α : Type) := Reading → Document → Except DecodeError α

namespace Document

/-- A document as messages name it. -/
def describe : Document → String
  | .null => "null"
  | .bool b => "boolean `" ++ (if b then "true" else "false") ++ "`"
  | .num (.int i) => "integer `" ++ String.ofList (Json.spellInt i) ++ "`"
  | .num (.float x) => "floating point `" ++ x.text .json ++ "`"
  | .str s => "string " ++ Text.quote s
  | .arr _ => "sequence"
  | .obj _ => "map"
  | .fault why => DecodeError.faultText why

/-- The error of a document that is not what was expected. -/
def mismatch (expected : String) : Document → DecodeError
  | .fault why => .faulty why
  | d => .wrongType d.describe expected

end Document

namespace Decode

open Document

/-- The value of a whole text. -/
def ofText {α : Type} (value : Decoder α) (s : String) : Except Json.TextError α :=
  match Document.read s with
  | none => .error .notJson
  | some d => (value .direct d).mapError .otherShape

/-- The value of a JSON value. -/
def ofJson {α : Type} (value : Decoder α) (j : Json) : Except DecodeError α :=
  value .direct (Document.ofJson j)

def text : Decoder String
  | _, .str s => .ok s
  | _, d => .error (d.mismatch "a string")

def bool : Decoder Bool
  | _, .bool b => .ok b
  | _, d => .error (d.mismatch "a boolean")

/-- A natural number below `bound`. -/
def natBelow (bound : Nat) (expected : String) : Decoder Nat
  | _, .num (.int i) =>
    if 0 ≤ i ∧ i < bound then .ok i.toNat
    else .error (.wrongValue (Document.describe (.num (.int i))) expected)
  | _, d => .error (d.mismatch expected)

/-- A count: a natural number of 64 bits. -/
def count : Decoder Nat := natBelow UInt64.size "usize"

/-- A floating-point number; integers are rounded to one. -/
def float : Decoder Binary64
  | _, .num (.float x) => .ok x
  | _, .num (.int i) => .ok (.ofInt i)
  | _, d => .error (d.mismatch "f64")

/-- An array of values of one kind. -/
def list {α : Type} (item : Decoder α) : Decoder (List α)
  | r, .arr items => items.mapM (item r)
  | _, d => .error (d.mismatch "a sequence")

/-- An object as a map from its keys; of two members with one key the later one counts. -/
def map {α : Type} (value : Decoder α) : Decoder (SortedMap String α)
  | r, .obj members => do
    return .ofList (← members.mapM fun m => do return (m.1, ← value r m.2))
  | _, d => .error (d.mismatch "a map")

def json : Decoder Json
  | _, d => match d.value? with
    | some j => .ok j
    | none => .error (d.mismatch "any value")

def nullable {α : Type} (value : Decoder α) : Decoder (Option α)
  | _, .null => .ok none
  | r, d => some <$> value r d

/-- Nothing: null, and the empty object where documents are held back. -/
def nothing : Decoder Unit
  | _, .null => .ok ()
  | .heldBack, .obj [] => .ok ()
  | _, d => .error (d.mismatch "unit")

/-- The value of a word. -/
def findWord {α : Type} (words : List (String × α)) (s : String) : Except DecodeError α :=
  match words.lookup s with
  | some a => .ok a
  | none => .error (.unknownVariant s (words.map (·.1)))

/-- One of some words. A word may stand alone or as the only key of an object that holds nothing. -/
def word {α : Type} (words : List (String × α)) : Decoder α
  | _, .str s => findWord words s
  | r, .obj [(key, value)] => do
    let a ← findWord words key
    nothing r value
    return a
  | _, .obj _ => .error (.wrongValue "map" "map with a single key")
  | _, d => .error (d.mismatch "string or map")

/-- A declared field of a record: its name, and another spelling that is also read. -/
structure Field where
  name : String
  alias? : Option String

def field (name : String) : Field := ⟨name, none⟩

/-- The declared name that a key spells. -/
def declaredName? (fields : List Field) (key : String) : Option String :=
  (fields.find? fun f => f.name == key || f.alias? == some key).map (·.name)

/-- The fields of a record that are present, by their declared names. -/
structure Members where
  reading : Reading
  present : List (String × Document)

/-- The declared fields among the members of an object. -/
def declaredMembers (fields : List Field) (isClosed : Bool) :
    List (String × Document) → Except DecodeError (List (String × Document))
  | [] => .ok []
  | (key, value) :: rest =>
    match declaredName? fields key with
    | none =>
      if isClosed then .error (.unknownField key (fields.map (·.name)))
      else declaredMembers fields isClosed rest
    | some name => do
      let others ← declaredMembers fields isClosed rest
      if others.any (·.1 == name) then .error (.duplicateField name)
      else .ok ((name, value) :: others)

/-- The fields of a record of the given name. -/
def record (title : String) (fields : List Field) (isClosed : Bool) : Decoder Members
  | r, .obj members => do return ⟨r, ← declaredMembers fields isClosed members⟩
  | r, .arr items =>
    if items.length ≤ fields.length then .ok ⟨r, (fields.map (·.name)).zip items⟩
    else .error (.wrongLength items.length ("struct " ++ title))
  | _, d => .error (d.mismatch ("struct " ++ title))

namespace Members

def get? (m : Members) (name : String) : Option Document := m.present.lookup name

def required {α : Type} (m : Members) (name : String) (value : Decoder α) : Except DecodeError α :=
  match m.get? name with
  | some d => value m.reading d
  | none => .error (.missingField name)

/-- A field that has a value when it is missing. -/
def withDefault {α : Type} (m : Members) (name : String) (default : α) (value : Decoder α) :
    Except DecodeError α :=
  match m.get? name with
  | some d => value m.reading d
  | none => .ok default

/-- A field that may be missing or null. -/
def optional {α : Type} (m : Members) (name : String) (value : Decoder α) :
    Except DecodeError (Option α) :=
  m.withDefault name none (nullable value)

end Members

/-- The tag that a document names. -/
def tagName (tags : List String) : Decoder String
  | _, .str s => if s ∈ tags then .ok s else .error (.unknownVariant s tags)
  | .heldBack, .num (.int i) =>
    match tags[i.toNat]? with
    | some t => if 0 ≤ i then .ok t else .error (.wrongValue "integer" "variant identifier")
    | none => .error (.wrongValue "integer" "variant index")
  | _, d => .error (d.mismatch "variant identifier")

/-- A tagged value: its tag, and the document without it. In an object the tag is a member, in an
array it is the first item. -/
def tagged (tag : String) (tags : List String) : Decoder (String × Document)
  | r, d =>
    if !d.isSound then .error (d.mismatch "any value")
    else match d with
      | .obj members =>
        match members.filter (·.1 == tag) with
        | [] => .error (.missingField tag)
        | [(_, t)] => do return (← tagName tags r t, .obj (members.filter (·.1 != tag)))
        | _ => .error (.duplicateField tag)
      | .arr [] => .error (.missingField tag)
      | .arr (t :: rest) => do return (← tagName tags r t, .arr rest)
      | d => .error (d.mismatch "internally tagged enum")

/-- A variant that is the only key of an object, with the document that it holds. -/
def variant (names : List String) : Decoder (String × Document)
  | _, .obj [(key, value)] =>
    if key ∈ names then .ok (key, value) else .error (.unknownVariant key names)
  | _, .obj _ => .error (.wrongValue "map" "map with a single key")
  | _, .str s => .error (.wrongType ("unit variant " ++ s) "newtype variant")
  | _, d => .error (d.mismatch "string or map")

end Decode

end Clausal
