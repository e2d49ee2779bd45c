import Clausal.Digest.Identifier
import Clausal.Distinct
import Clausal.Schema.Signature

/-!
# Predicate schemas

An entity schema has a signature and key fields; a relation schema joins two entity schemas by some
of their fields and has props of its own. Key fields are names of arguments, and no two arguments of
a schema have one name. The identifier of a schema is fixed by what it says about its predicate:
description and merge policy do not enter into it.
-/

namespace Clausal

/-- What is to become of two records about the same thing. -/
inductive MergePolicy
  | max
  | latest
  | noisyOr
  | overwrite
  | keepAll
deriving DecidableEq, Repr

namespace MergePolicy

def text : MergePolicy → String
  | .max => "max"
  | .latest => "latest"
  | .noisyOr => "noisy_or"
  | .overwrite => "overwrite"
  | .keepAll => "keep_all"

def words : List (String × MergePolicy) :=
  [("max", .max), ("latest", .latest), ("noisy_or", .noisyOr), ("overwrite", .overwrite),
   ("keep_all", .keepAll)]

/-- The policy that a text names; blanks around it and case do not matter. -/
def parse (s : String) : Except SchemaError MergePolicy :=
  match words.lookup (Text.lower (Text.trim s)) with
  | some policy => .ok policy
  | none => .error (.unknownMergePolicy s)

end MergePolicy

/-- The name of a predicate, without blanks around it. -/
def checkedName (name : String) : Except SchemaError String :=
  let trimmed := Text.trim name
  if trimmed = "" then .error (.emptyName .predicate) else .ok trimmed

/-- What the identifier of an entity schema depends on. -/
def FactSchema.identity (name : String) (signature : Signature) (keyFields : List String) : Json :=
  .obj [("kind", .str "fact"), ("name", .str name),
    ("signature", .arr (signature.args.map Arg.canonical)), ("key_fields", .ofStrings keyFields)]

/-- An entity predicate. -/
structure FactSchema where
  name : String
  signature : Signature
  keyFields : List String
  keyFields_subset : keyFields ⊆ signature.names
  description : Option String
  mergePolicy : MergePolicy
  id : String
  id_eq : id = Identifier.ofJson (FactSchema.identity name signature keyFields)
deriving DecidableEq

namespace FactSchema

/-- The key fields of a signature that declares none: the arguments of the role `key`, or else `id`,
or else `name`, or else the first argument. -/
def derivedKeyFields (signature : Signature) : List String :=
  let candidates := [Role.key, Role.id, Role.name].map signature.namesOfRole
  (candidates.find? (· ≠ [])).getD (signature.names.take 1)

theorem derivedKeyFields_subset (signature : Signature) :
    derivedKeyFields signature ⊆ signature.names := by
  simp only [derivedKeyFields]
  cases found : ([Role.key, Role.id, Role.name].map signature.namesOfRole).find? (· ≠ []) with
  | none => exact (List.take_sublist 1 _).subset
  | some names =>
    obtain ⟨role, -, rfl⟩ := List.mem_map.1 (List.mem_of_find?_eq_some found)
    exact signature.namesOfRole_subset role

/-- The key fields of a signature: those that are declared, if any. -/
def resolveKeyFields (name : String) (signature : Signature) (declared : List String) :
    Except SchemaError { l : List String // l ⊆ signature.names } :=
  if declared = [] then .ok ⟨derivedKeyFields signature, derivedKeyFields_subset signature⟩
  else signature.checkedFields name declared

/-- The entity schema of argument specs. No declared key fields means that they are derived. -/
def build (name : String) (specs : List ArgSpec) (description : Option String)
    (mergePolicy : MergePolicy) (keyFields : List String) : Except SchemaError FactSchema := do
  let name ← checkedName name
  let signature ← Signature.resolve name specs
  let keys ← resolveKeyFields name signature keyFields
  return ⟨name, signature, keys.1, keys.2, description, mergePolicy, _, rfl⟩

end FactSchema

namespace RelSchema

def identity (name subId objId : String) (subKeyFields objKeyFields : List String)
    (props : Signature) : Json :=
  .obj [("kind", .str "rel"), ("name", .str name), ("sub_schema_id", .str subId),
    ("obj_schema_id", .str objId),
    ("endpoints", .obj [("sub_key_fields", .ofStrings subKeyFields),
      ("obj_key_fields", .ofStrings objKeyFields)]),
    ("props", .arr (props.args.map Arg.canonical))]

/-- The arguments for the key fields of an entity schema at a side. -/
def endpointArgs (endpoint : FactSchema) (keyFields : List String) (side : Side) : List Arg :=
  keyFields.filterMap fun key => (endpoint.signature.find? key).map fun arg =>
    ⟨side.start ++ key, arg.datatype, some side.role, arg.space⟩

/-- The arguments of a relation: the key fields of both sides and the props. -/
def argsOf (sub obj : FactSchema) (subKeyFields objKeyFields : List String) (props : Signature) :
    List Arg :=
  endpointArgs sub subKeyFields .sub ++ endpointArgs obj objKeyFields .obj ++ props.args

/-- The key fields of an endpoint: those that are declared, or else those of the entity. -/
def resolveKeyFields (endpoint : FactSchema) (declared : List String) :
    Except SchemaError { l : List String // l ⊆ endpoint.signature.names } :=
  if declared = [] then .ok ⟨endpoint.keyFields, endpoint.keyFields_subset⟩
  else endpoint.signature.checkedFields endpoint.name declared

end RelSchema

/-- A relation predicate between two entity predicates. -/
structure RelSchema where
  name : String
  sub : FactSchema
  obj : FactSchema
  subKeyFields : List String
  subKeyFields_subset : subKeyFields ⊆ sub.signature.names
  objKeyFields : List String
  objKeyFields_subset : objKeyFields ⊆ obj.signature.names
  props : Signature
  names_nodup : ((RelSchema.argsOf sub obj subKeyFields objKeyFields props).map (·.name)).Nodup
  description : Option String
  mergePolicy : MergePolicy
  id : String
  id_eq : id = Identifier.ofJson
    (RelSchema.identity name sub.id obj.id subKeyFields objKeyFields props)
deriving DecidableEq

namespace RelSchema

def endpoint (r : RelSchema) : Side → FactSchema
  | .sub => r.sub
  | .obj => r.obj

/-- The fields that identify the entity at a side. -/
def keyFieldsOf (r : RelSchema) : Side → List String
  | .sub => r.subKeyFields
  | .obj => r.objKeyFields

/-- The arguments of a relation: the key fields of both sides and the props. -/
def signature (r : RelSchema) : Signature :=
  ⟨argsOf r.sub r.obj r.subKeyFields r.objKeyFields r.props, r.names_nodup⟩

/-- The names of the arguments for the key fields of both sides. -/
def keyFields (r : RelSchema) : List String :=
  (endpointArgs r.sub r.subKeyFields .sub ++ endpointArgs r.obj r.objKeyFields .obj).map (·.name)

end RelSchema

/-- A predicate schema of either kind. -/
inductive Schema
  | fact (f : FactSchema)
  | rel (r : RelSchema)
deriving DecidableEq

namespace Schema

def kind : Schema → Kind
  | .fact _ => .fact
  | .rel _ => .rel

def name : Schema → String
  | .fact f => f.name
  | .rel r => r.name

def id : Schema → String
  | .fact f => f.id
  | .rel r => r.id

def signature : Schema → Signature
  | .fact f => f.signature
  | .rel r => r.signature

def arity (s : Schema) : Nat := s.signature.length

/-- The names of the arguments that identify a record. -/
def keyFields : Schema → List String
  | .fact f => f.keyFields
  | .rel r => r.keyFields

def description : Schema → Option String
  | .fact f => f.description
  | .rel r => r.description

def mergePolicy : Schema → MergePolicy
  | .fact f => f.mergePolicy
  | .rel r => r.mergePolicy

/-- The entity schema that a side of a relation needs. -/
def endpointFact (relation : String) (side : Side) : Schema → Except SchemaError FactSchema
  | .fact f => .ok f
  | .rel r => .error (.endpointNotEntity relation side r.name)

end Schema

/-- The relation schema of prop specs. An empty list of key fields means those of the entity. -/
def RelSchema.build (name : String) (sub obj : Schema) (propSpecs : List ArgSpec)
    (subKeyFields objKeyFields : List String) (description : Option String)
    (mergePolicy : MergePolicy) : Except SchemaError RelSchema := do
  let name ← checkedName name
  let sub ← sub.endpointFact name .sub
  let obj ← obj.endpointFact name .obj
  let subKeys ← resolveKeyFields sub subKeyFields
  let objKeys ← resolveKeyFields obj objKeyFields
  let props ← Signature.resolve name propSpecs
  match distinct : firstRepeat? Arg.name [] (argsOf sub obj subKeys.1 objKeys.1 props) with
  | some arg => throw (.duplicateArgName name arg.name)
  | none => return {
      name, sub, obj, props, description, mergePolicy
      subKeyFields := subKeys.1
      subKeyFields_subset := subKeys.2
      objKeyFields := objKeys.1
      objKeyFields_subset := objKeys.2
      names_nodup := nodup_of_firstRepeat? distinct
      id := _
      id_eq := rfl }

/-- An argument in a declaration: written out, or as a shorthand. -/
inductive ArgInput
  | spec (s : ArgSpec)
  | shorthand (s : String)
deriving DecidableEq

def ArgInput.toSpec : ArgInput → Except SchemaError ArgSpec
  | .spec s => .ok s
  | .shorthand s => ArgSpec.parse s

/-- An entity predicate as it is declared. -/
structure FactDeclaration where
  name : String
  args : List ArgInput
  description : Option String
  mergePolicy : MergePolicy
  /-- No field means that the key fields are derived from the roles. -/
  keyFields : List String

def FactDeclaration.build (d : FactDeclaration) : Except SchemaError Schema := do
  let specs ← d.args.mapM ArgInput.toSpec
  return .fact (← FactSchema.build d.name specs d.description d.mergePolicy d.keyFields)

/-- A relation predicate as it is declared. -/
structure RelDeclaration where
  name : String
  sub : Schema
  obj : Schema
  props : List ArgInput
  /-- No field means the key fields of the entity at that side. -/
  subKeyFields : List String
  objKeyFields : List String
  description : Option String
  mergePolicy : MergePolicy

def RelDeclaration.build (d : RelDeclaration) : Except SchemaError Schema := do
  let specs ← d.props.mapM ArgInput.toSpec
  return .rel (← RelSchema.build d.name d.sub d.obj specs d.subKeyFields d.objKeyFields
    d.description d.mergePolicy)

end Clausal
