import Clausal.Record.Basic

/-!
# Records from terms

The content of a record can be given by position, by argument name, or, for a relation, endpoint by
endpoint. Each shape is first sorted into field values; one strict constructor then checks them.
-/

namespace Clausal

/-- Whether a bare value may stand for an endpoint. -/
inductive ResolveMode
  | strict
  /-- It may when both endpoints have exactly one key field. -/
  | heuristic
deriving DecidableEq, Repr

namespace ResolveMode

def words : List (String × ResolveMode) := [("strict", .strict), ("heuristic", .heuristic)]

end ResolveMode

/-- A reference to an entity by its schema and key values. -/
structure EntityRef where
  schemaId : String
  keyValues : FieldMap
deriving DecidableEq

def EntityRef.decode : Decoder EntityRef := fun r d => do
  let m ← Decode.record "InstanceRef" (["schema_id", "key_values"].map Decode.field) false r d
  return {
    schemaId := ← m.required "schema_id" Decode.text
    keyValues := ← m.required "key_values" FieldMap.decode }

/-- What stands for an endpoint of a relation. -/
inductive Endpoint
  | record (r : Record)
  | reference (e : EntityRef)
  /-- Key values, by names with or without the start that marks the side. -/
  | keys (values : FieldMap)
  | scalar (v : Value)

inductive Props
  | positional (values : List Value)
  /-- A prop may be given in one of the two maps only. -/
  | named (inline nested : FieldMap)

/-- The content of a record as it is given. -/
inductive Terms
  | positional (values : List Value)
  | keyed (values : FieldMap)
  | relation (sub obj : Endpoint) (props : Props)

/-- The field values of a relation record. -/
structure RelationContent where
  sub : FieldMap
  obj : FieldMap
  props : FieldMap
deriving DecidableEq

namespace RelationContent

def empty : RelationContent := ⟨.empty, .empty, .empty⟩

/-- The content with one more key value at a side. -/
def withKey (c : RelationContent) (side : Side) (key : String) (v : Value) : RelationContent :=
  match side with
  | .sub => { c with sub := c.sub.insert key v }
  | .obj => { c with obj := c.obj.insert key v }

def withProp (c : RelationContent) (name : String) (v : Value) : RelationContent :=
  { c with props := c.props.insert name v }

end RelationContent

namespace Side

/-- A name without the start that marks a side, if it has it. -/
def bareName (side : Side) (name : String) : String := (Text.stripStart? side.start name).getD name

/-- Key values by names without the start that marks a side. Of two names that become one, the
later one in order counts. -/
def bareKeys (side : Side) (values : FieldMap) : FieldMap :=
  .ofList (values.entries.map fun e => (side.bareName e.1, e.2))

end Side

namespace Terms

/-- Fails when there is not one value for each argument. -/
def checkArity (s : Schema) (found : Nat) : Except SchemaError Unit :=
  if found = s.arity then .ok () else .error (.arityMismatch s.name s.arity found)

def factProps (f : FactSchema) : Terms → Except SchemaError FieldMap
  | .positional values => do
    checkArity (.fact f) values.length
    return .ofList (f.signature.names.zip values)
  | .keyed values => .ok values
  | .relation .. => .error (.invalidTerms f.name .relationShape)

/-- The field values of a relation record, from one value for each argument. The role of an
argument decides where its value goes. -/
def placeByRole (c : RelationContent) : List (Arg × Value) → RelationContent
  | [] => c
  | (a, v) :: rest =>
    match a.role with
    | some .subKey => placeByRole (c.withKey .sub (Side.sub.bareName a.name) v) rest
    | some .objKey => placeByRole (c.withKey .obj (Side.obj.bareName a.name) v) rest
    | _ => placeByRole (c.withProp a.name v) rest

/-- The key field of a side that a name with the start of that side spells. -/
def markedKey? (r : RelSchema) (side : Side) (name : String) : Option String :=
  (Text.stripStart? side.start name).filter (r.keyFieldsOf side).contains

/-- The field values of a relation record, from values by name. A name is that of a prop, or of a
key field of one side only, or it marks the side of its key field. Others are taken for props. -/
def placeByName (r : RelSchema) (c : RelationContent) :
    List (String × Value) → Except SchemaError RelationContent
  | [] => .ok c
  | (name, v) :: rest =>
    let isSub := r.subKeyFields.contains name
    let isObj := r.objKeyFields.contains name
    if (r.props.find? name).isSome then placeByName r (c.withProp name v) rest
    else if isSub && isObj then .error (.ambiguousEndpointKey r.name name)
    else if isSub then placeByName r (c.withKey .sub name v) rest
    else if isObj then placeByName r (c.withKey .obj name v) rest
    else match markedKey? r .sub name, markedKey? r .obj name with
      | some key, _ => placeByName r (c.withKey .sub key v) rest
      | none, some key => placeByName r (c.withKey .obj key v) rest
      | none, none => placeByName r (c.withProp name v) rest

/-- The key values that stand for an endpoint. -/
def endpointKeys (r : RelSchema) (side : Side) (mode : ResolveMode) :
    Endpoint → Except SchemaError FieldMap
  | .record e =>
    if e.kind ≠ .fact then .error (.invalidEndpoint r.name side .notEntity)
    else if e.schemaId ≠ (r.endpoint side).id then
      .error (.invalidEndpoint r.name side (.recordSchema e.schemaId (r.endpoint side).id))
    else .ok (.ofList (Record.pairsOf (r.keyFieldsOf side) e.props))
  | .reference e =>
    if e.schemaId ≠ (r.endpoint side).id then
      .error (.invalidEndpoint r.name side (.referenceSchema e.schemaId (r.endpoint side).id))
    else .ok (side.bareKeys e.keyValues)
  | .keys values => .ok (side.bareKeys values)
  | .scalar v =>
    match mode, r.keyFieldsOf side with
    | .strict, _ => .error (.invalidEndpoint r.name side .scalar)
    | .heuristic, key :: _ =>
      if r.subKeyFields.length = 1 ∧ r.objKeyFields.length = 1 then .ok (.ofList [(key, v)])
      else .error (.heuristicUnavailable r.name)
    | .heuristic, [] => .error (.heuristicUnavailable r.name)

def propValues (r : RelSchema) : Props → Except SchemaError FieldMap
  | .positional values =>
    if values.length = r.props.length then .ok (.ofList (r.props.names.zip values))
    else .error (.invalidTerms r.name (.propCount r.props.length values.length))
  | .named inline nested =>
    let both := nested.keys.filter inline.contains
    if both = [] then .ok (inline.union nested) else .error (.duplicateProps r.name both)

def relationContent (r : RelSchema) (mode : ResolveMode) :
    Terms → Except SchemaError RelationContent
  | .positional values => do
    checkArity (.rel r) values.length
    return placeByRole .empty (r.signature.args.zip values)
  | .keyed values => placeByName r .empty values.entries
  | .relation sub obj props => do
    return {
      sub := ← endpointKeys r .sub mode sub
      obj := ← endpointKeys r .obj mode obj
      props := ← propValues r props }

end Terms

/-- What a record is given besides its content. -/
structure RecordOptions where
  prob : Option Binary64
  metadata : Metadata
  mode : ResolveMode

def RecordOptions.default : RecordOptions := ⟨none, .empty, .strict⟩

/-- The record of terms. -/
def Record.ofTerms (s : Schema) (terms : Terms) (o : RecordOptions) :
    Except SchemaError Record := do
  checkProbability o.prob
  o.metadata.check
  match s with
  | .fact f => ofFact f (← terms.factProps f) o.prob o.metadata
  | .rel r =>
    let c ← terms.relationContent r o.mode
    ofRelation r c.sub c.obj c.props o.prob o.metadata

end Clausal
