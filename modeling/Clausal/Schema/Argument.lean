import Clausal.Schema.Error
import Clausal.Value

/-!
# Arguments of predicates

An argument spec says as much about an argument as its author wrote. An argument has a name and a
datatype, and its role decides whether it takes part in identifying something.
-/

namespace Clausal

/-- What an argument is for. The first three decide the key fields of an entity. -/
inductive Role
  | key
  | id
  | name
  | subKey
  | objKey
  | attr
deriving DecidableEq, Repr

namespace Role

def text : Role → String
  | .key => "key"
  | .id => "id"
  | .name => "name"
  | .subKey => "sub_key"
  | .objKey => "obj_key"
  | .attr => "attr"

def words : List (String × Role) :=
  [("key", .key), ("id", .id), ("name", .name), ("sub_key", .subKey), ("obj_key", .objKey),
   ("attr", .attr)]

end Role

/-- The role of the key fields of a side in the signature of a relation. -/
def Side.role : Side → Role
  | .sub => .subKey
  | .obj => .objKey

/-- An argument as it is written: what is missing is filled in by `Signature.resolve`. -/
structure ArgSpec where
  name : Option String
  datatype : Option String
  role : Option Role
  space : Option String
deriving DecidableEq

/-- An argument of a signature. -/
structure Arg where
  name : String
  datatype : String
  role : Option Role
  /-- The namespace that the values belong to. -/
  space : Option String
deriving DecidableEq

/-- An argument as it is stored. -/
structure ArgPayload where
  datatype : Option String
  role : Option Role
  space : Option String
  name : Option String
  /-- A shorthand, which is read but never written. -/
  spec : Option String
deriving DecidableEq

namespace ArgSpec

/-- The spec that says nothing. -/
def blank : ArgSpec := ⟨none, none, none, none⟩

/-- The spec of a shorthand: `Name:type`, or a known datatype, or a name. -/
def parse (spec : String) : Except SchemaError ArgSpec :=
  let cs := Text.trimChars spec.toList
  if cs.isEmpty then .error (.emptyArgSpec spec)
  else match Text.splitAtFirst? ':' cs with
    | some (before, after) =>
      let name := Text.trimChars before
      let datatype := Text.trimChars after
      if name.isEmpty || datatype.isEmpty then .error (.halfArgSpec spec)
      else .ok { blank with name := String.ofList name, datatype := String.ofList datatype }
    | none =>
      let text := String.ofList cs
      if Datatype.isKnown text then .ok { blank with datatype := text }
      else .ok { blank with name := text }

/-- The spec with a name, unless it already has another one. -/
def withName (spec : ArgSpec) (name : String) : Except SchemaError ArgSpec :=
  match spec.name with
  | some existing =>
    if existing = name then .ok spec else .error (.ambiguousArgName existing name)
  | none => .ok { spec with name := name }

/-- The spec with a datatype, unless it already has another one. -/
def withDatatype (spec : ArgSpec) (source datatype : String) : Except SchemaError ArgSpec :=
  match spec.datatype with
  | some existing =>
    if Datatype.agree existing datatype then .ok { spec with datatype := datatype }
    else .error (.conflictingDatatype source datatype)
  | none => .ok { spec with datatype := datatype }

/-- The spec of a stored argument. Role and namespace are those of the payload. -/
def ofPayload (p : ArgPayload) : Except SchemaError ArgSpec := do
  let spec ← match p.spec with
    | some text => parse text
    | none => .ok blank
  let spec ← match p.name with
    | some name => spec.withName name
    | none => .ok spec
  let spec ← match p.datatype with
    | some datatype => spec.withDatatype (p.spec.getD "") datatype
    | none => .ok spec
  return { spec with role := p.role, space := p.space }

end ArgSpec

namespace ArgPayload

def fields : List Decode.Field :=
  [Decode.field "datatype", Decode.field "role", Decode.field "namespace",
   ⟨"arg_name", some "name"⟩, Decode.field "spec"]

def decode : Decoder ArgPayload := fun r d => do
  let m ← Decode.record "ArgPayload" fields false r d
  return {
    datatype := ← m.optional "datatype" Decode.text
    role := ← m.optional "role" (Decode.word Role.words)
    space := ← m.optional "namespace" Decode.text
    name := ← m.optional "arg_name" Decode.text
    spec := ← m.optional "spec" Decode.text }

def toJson (p : ArgPayload) : Json :=
  .obj (Json.member? "datatype" (p.datatype.map .str) ++
    Json.member? "role" (p.role.map fun role => .str role.text) ++
    Json.member? "namespace" (p.space.map .str) ++
    Json.member? "arg_name" (p.name.map .str) ++
    Json.member? "spec" (p.spec.map .str))

end ArgPayload

namespace Arg

/-- Whether an argument takes part in identifying something. -/
def isKeyLike (a : Arg) : Bool :=
  match a.role with
  | some .attr | none => false
  | some _ => true

/-- What the identifier of a schema depends on in an argument. -/
def canonical (a : Arg) : Json :=
  .obj [("arg_name", .str a.name), ("datatype", .str a.datatype),
    ("role", .ofString? (a.role.map Role.text)), ("namespace", .ofString? a.space)]

def toPayload (a : Arg) : ArgPayload := ⟨a.datatype, a.role, a.space, a.name, none⟩

end Arg

end Clausal
