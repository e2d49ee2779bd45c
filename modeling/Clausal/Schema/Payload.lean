import Clausal.Schema.Basic

/-!
# Stored schemas

A payload is what is written of a schema. Loading builds the schema anew: what a payload declares
about identifier and arity has to agree with it, and what it says about the derived signature of a
relation is not looked at.
-/

namespace Clausal

/-- An entity schema as it is stored. -/
structure FactPayload where
  name : String
  arity : Option Nat
  schemaId : Option String
  description : Option String
  mergePolicy : MergePolicy
  signature : List ArgPayload
  keyFields : List String
deriving DecidableEq

/-- The names of the arguments of a relation, part by part. -/
structure DerivedSignature where
  subArgs : List String
  objArgs : List String
  propArgs : List String
deriving DecidableEq

/-- A relation schema as it is stored. -/
structure RelPayload where
  name : String
  arity : Option Nat
  schemaId : Option String
  description : Option String
  mergePolicy : MergePolicy
  subSchemaId : String
  objSchemaId : String
  subKeyFields : List String
  objKeyFields : List String
  props : List ArgPayload
  signature : List ArgPayload
  keyFields : List String
  derivedSignature : Option DerivedSignature
deriving DecidableEq

/-- A schema as it is stored. -/
inductive SchemaPayload
  | fact (p : FactPayload)
  | rel (p : RelPayload)
deriving DecidableEq

namespace DerivedSignature

def decode : Decoder DerivedSignature := fun r d => do
  let m ← Decode.record "DerivedSignature"
    (["sub_args", "obj_args", "prop_args"].map Decode.field) false r d
  return {
    subArgs := ← m.required "sub_args" (Decode.list Decode.text)
    objArgs := ← m.required "obj_args" (Decode.list Decode.text)
    propArgs := ← m.required "prop_args" (Decode.list Decode.text) }

def toJson (s : DerivedSignature) : Json :=
  .obj [("sub_args", .ofStrings s.subArgs), ("obj_args", .ofStrings s.objArgs),
    ("prop_args", .ofStrings s.propArgs)]

end DerivedSignature

namespace FactPayload

def decode : Decoder FactPayload := fun r d => do
  let m ← Decode.record "FactPayload"
    (["name", "arity", "schema_id", "description", "merge_policy", "signature",
      "key_fields"].map Decode.field) false r d
  return {
    name := ← m.required "name" Decode.text
    arity := ← m.optional "arity" Decode.count
    schemaId := ← m.optional "schema_id" Decode.text
    description := ← m.optional "description" Decode.text
    mergePolicy := ← m.withDefault "merge_policy" .latest (Decode.word MergePolicy.words)
    signature := ← m.withDefault "signature" [] (Decode.list ArgPayload.decode)
    keyFields := ← m.withDefault "key_fields" [] (Decode.list Decode.text) }

def members (p : FactPayload) : List (String × Json) :=
  [("kind", .str Kind.fact.text), ("name", .str p.name)] ++
    Json.member? "arity" (p.arity.map .ofNat) ++
    Json.member? "schema_id" (p.schemaId.map .str) ++
    Json.member? "description" (p.description.map .str) ++
    [("merge_policy", .str p.mergePolicy.text),
     ("signature", .arr (p.signature.map ArgPayload.toJson)),
     ("key_fields", .ofStrings p.keyFields)]

end FactPayload

namespace RelPayload

/-- The key fields of both sides of a document. -/
def decodeEndpoints : Decoder (List String × List String) := fun r d => do
  let m ← Decode.record "EndpointsPayload"
    (["sub_key_fields", "obj_key_fields"].map Decode.field) false r d
  return (← m.withDefault "sub_key_fields" [] (Decode.list Decode.text),
    ← m.withDefault "obj_key_fields" [] (Decode.list Decode.text))

def decode : Decoder RelPayload := fun r d => do
  let m ← Decode.record "RelPayload"
    (["name", "arity", "schema_id", "description", "merge_policy", "sub_schema_id",
      "obj_schema_id", "endpoints", "props", "signature", "key_fields",
      "derived_signature"].map Decode.field) false r d
  let endpoints ← m.withDefault "endpoints" ([], []) decodeEndpoints
  return {
    name := ← m.required "name" Decode.text
    arity := ← m.optional "arity" Decode.count
    schemaId := ← m.optional "schema_id" Decode.text
    description := ← m.optional "description" Decode.text
    mergePolicy := ← m.withDefault "merge_policy" .latest (Decode.word MergePolicy.words)
    subSchemaId := ← m.required "sub_schema_id" Decode.text
    objSchemaId := ← m.required "obj_schema_id" Decode.text
    subKeyFields := endpoints.1
    objKeyFields := endpoints.2
    props := ← m.withDefault "props" [] (Decode.list ArgPayload.decode)
    signature := ← m.withDefault "signature" [] (Decode.list ArgPayload.decode)
    keyFields := ← m.withDefault "key_fields" [] (Decode.list Decode.text)
    derivedSignature := ← m.optional "derived_signature" DerivedSignature.decode }

/-- An array, unless it is empty. -/
def nonempty? (items : List Json) : Option Json := if items.isEmpty then none else some (.arr items)

def members (p : RelPayload) : List (String × Json) :=
  [("kind", .str Kind.rel.text), ("name", .str p.name)] ++
    Json.member? "arity" (p.arity.map .ofNat) ++
    Json.member? "schema_id" (p.schemaId.map .str) ++
    Json.member? "description" (p.description.map .str) ++
    [("merge_policy", .str p.mergePolicy.text),
     ("sub_schema_id", .str p.subSchemaId), ("obj_schema_id", .str p.objSchemaId),
     ("endpoints", .obj [("sub_key_fields", .ofStrings p.subKeyFields),
       ("obj_key_fields", .ofStrings p.objKeyFields)]),
     ("props", .arr (p.props.map ArgPayload.toJson))] ++
    Json.member? "signature" (nonempty? (p.signature.map ArgPayload.toJson)) ++
    Json.member? "key_fields" (nonempty? (p.keyFields.map .str)) ++
    Json.member? "derived_signature" (p.derivedSignature.map DerivedSignature.toJson)

end RelPayload

namespace SchemaPayload

def kind : SchemaPayload → Kind
  | .fact _ => .fact
  | .rel _ => .rel

def name : SchemaPayload → String
  | .fact p => p.name
  | .rel p => p.name

def schemaId : SchemaPayload → Option String
  | .fact p => p.schemaId
  | .rel p => p.schemaId

def arity : SchemaPayload → Option Nat
  | .fact p => p.arity
  | .rel p => p.arity

/-- A stored schema of a document; the tag `kind` tells which. -/
def decode : Decoder SchemaPayload := fun r d => do
  let (kind, body) ← Decode.tagged "kind" (Kind.words.map (·.1)) r d
  if kind = "fact" then return .fact (← FactPayload.decode .heldBack body)
  else return .rel (← RelPayload.decode .heldBack body)

def members : SchemaPayload → List (String × Json)
  | .fact p => p.members
  | .rel p => p.members

def toJson (p : SchemaPayload) : Json := .obj p.members

end SchemaPayload

namespace FactSchema

def toPayload (f : FactSchema) : FactPayload where
  name := f.name
  arity := f.signature.length
  schemaId := f.id
  description := f.description
  mergePolicy := f.mergePolicy
  signature := f.signature.args.map Arg.toPayload
  keyFields := f.keyFields

end FactSchema

namespace RelSchema

def toPayload (r : RelSchema) : RelPayload where
  name := r.name
  arity := r.signature.length
  schemaId := r.id
  description := r.description
  mergePolicy := r.mergePolicy
  subSchemaId := r.sub.id
  objSchemaId := r.obj.id
  subKeyFields := r.subKeyFields
  objKeyFields := r.objKeyFields
  props := r.props.args.map Arg.toPayload
  signature := r.signature.args.map Arg.toPayload
  keyFields := r.keyFields
  derivedSignature := some
    { subArgs := (endpointArgs r.sub r.subKeyFields .sub).map (·.name)
      objArgs := (endpointArgs r.obj r.objKeyFields .obj).map (·.name)
      propArgs := r.props.names }

end RelSchema

namespace Schema

def toPayload : Schema → SchemaPayload
  | .fact f => .fact f.toPayload
  | .rel r => .rel r.toPayload

/-- The endpoint of a stored relation that an identifier names. -/
def storedEndpoint (find? : String → Option Schema) (relation id : String) :
    Except SchemaError Schema :=
  match find? id with
  | some s => .ok s
  | none => .error (.unresolvedEndpoint relation id)

/-- The schema that the content of a payload describes; `find?` gives the endpoints of a
relation. -/
def ofContent (find? : String → Option Schema) : SchemaPayload → Except SchemaError Schema
  | .fact p => do
    let specs ← p.signature.mapM ArgSpec.ofPayload
    return .fact (← FactSchema.build p.name specs p.description p.mergePolicy p.keyFields)
  | .rel p => do
    let sub ← storedEndpoint find? p.name p.subSchemaId
    let obj ← storedEndpoint find? p.name p.objSchemaId
    let props ← p.props.mapM ArgSpec.ofPayload
    return .rel (← RelSchema.build p.name sub obj props p.subKeyFields p.objKeyFields
      p.description p.mergePolicy)

/-- Fails when a schema is not what a payload declares. -/
def checkDeclared (p : SchemaPayload) (s : Schema) : Except SchemaError Unit :=
  if p.schemaId.any (· ≠ s.id) then
    .error (.identifierMismatch s.name (p.schemaId.getD "") s.id)
  else if p.arity.any (· ≠ s.arity) then
    .error (.arityDeclarationMismatch s.name (p.arity.getD 0) s.arity)
  else .ok ()

/-- The schema of a payload, when it is what the payload declares. -/
def ofPayload (p : SchemaPayload) (find? : String → Option Schema) : Except SchemaError Schema := do
  let s ← ofContent find? p
  checkDeclared p s
  return s

end Schema

end Clausal
