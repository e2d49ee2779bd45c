import Clausal.Metadata
import Clausal.Schema.Basic

/-!
# Records

A record says that its predicate holds. An entity record has the identifier of its entity, a
relation record those of both endpoints and, when they are known, the values of their key fields.
A record of a predicate that keeps all records has an identifier of its own.
-/

namespace Clausal

/-- The values of the key fields of both endpoints of a relation record. -/
structure EndpointKeys where
  sub : FieldMap
  obj : FieldMap
deriving DecidableEq

def EndpointKeys.at (keys : EndpointKeys) : Side → FieldMap
  | .sub => keys.sub
  | .obj => keys.obj

/-- What a record is about. -/
inductive Identity
  | entity (id : String)
  | relation (sub obj : String) (keys : Option EndpointKeys)
deriving DecidableEq

namespace Identity

def entities : Identity → List String
  | .entity id => [id]
  | .relation sub obj _ => [sub, obj]

def kind : Identity → Kind
  | .entity _ => .fact
  | .relation .. => .rel

/-- The key values of the endpoints, when they are known. -/
def keys? : Identity → Option EndpointKeys
  | .entity _ => none
  | .relation _ _ keys => keys

end Identity

/-- A record of a predicate. -/
structure Record where
  schemaId : String
  identity : Identity
  /-- Of an entity record all field values, of a relation record those of the props. -/
  props : FieldMap
  prob : Option Binary64
  metadata : Metadata
  recordId : Option String

namespace Record

def kind (r : Record) : Kind := r.identity.kind

/-- What the identifier of a record depends on when no evidence is named. -/
def evidence (props : FieldMap) (m : Metadata) : Json :=
  .obj [("props", props.toJson), ("source", .ofString? m.source),
    ("observed_at", .ofString? m.observedAt), ("ingested_at", .ofString? m.ingestedAt)]

/-- What tells a record from others about the same entities: the evidence that its metadata names,
or else a digest of its content. -/
def evidenceId (props : FieldMap) (m : Metadata) : String :=
  match m.evidenceId with
  | some id => if id = "" then Identifier.ofJson (evidence props m) else id
  | none => Identifier.ofJson (evidence props m)

/-- The identifier of a record of its own. -/
def computedId (r : Record) : String :=
  Identifier.record r.schemaId r.identity.entities (evidenceId r.props r.metadata)

/-- The record with an identifier of its own, when its predicate keeps all records. -/
def identified (r : Record) (policy : MergePolicy) : Record :=
  if policy = .keepAll then { r with recordId := r.computedId } else r

/-- The value of an argument: of a key field of an endpoint among the keys of that endpoint, of any
other argument among the props. -/
def argValue? (r : Record) (a : Arg) : Option Value :=
  match a.role, r.identity.keys? with
  | some .subKey, some keys => Text.stripStart? Side.sub.start a.name >>= keys.sub.get?
  | some .objKey, some keys => Text.stripStart? Side.obj.start a.name >>= keys.obj.get?
  | _, _ => r.props.get? a.name

def argValues (r : Record) (predicate : String) : List Arg → Except SchemaError (List Value)
  | [] => .ok []
  | a :: rest =>
    match r.argValue? a with
    | some v => do return v :: (← argValues r predicate rest)
    | none => .error (.invalidTerms predicate (.noValue a.name))

/-- The values of a record in the order of the arguments of its predicate. -/
def toTerms (r : Record) (s : Schema) : Except SchemaError (List Value) :=
  if s.id ≠ r.schemaId then .error (.schemaMismatch r.schemaId s.id)
  else if s.kind = .rel ∧ r.identity.keys? = none then .error (.endpointKeysUnavailable r.schemaId)
  else r.argValues s.name s.signature.args

/-- The value fails to be of the datatype of a field. -/
def checkValue (predicate field datatype : String) (v : Value) : Except SchemaError Unit :=
  if v.fits datatype then .ok () else .error (.valueTypeMismatch predicate field datatype v.display)

/-- Fails when a value is not of the datatype of the argument that `arg?` gives for its field. -/
def checkValues (predicate : String) (arg? : String → Option Arg) :
    List (String × Value) → Except SchemaError Unit
  | [] => .ok ()
  | (field, v) :: rest => do
    if let some a := arg? field then checkValue predicate field a.datatype v
    checkValues predicate arg? rest

/-- Fails when a prop of an entity record is no argument or not of its datatype. -/
def checkFactProps (f : FactSchema) (props : FieldMap) : Except SchemaError Unit := do
  let unknown := props.keys.filter fun k => (f.signature.find? k).isNone
  if unknown ≠ [] then throw (.unknownProps f.name unknown)
  checkValues f.name f.signature.find? props.entries

/-- Fails when the props of a relation record are not those that are declared. -/
def checkRelProps (r : RelSchema) (props : FieldMap) : Except SchemaError Unit := do
  let unknown := props.keys.filter fun k => (r.props.find? k).isNone
  if unknown ≠ [] then throw (.unknownProps r.name unknown)
  let missing := r.props.names.filter fun k => !props.contains k
  if missing ≠ [] then throw (.missingProps r.name missing)
  checkValues r.name r.props.find? props.entries

/-- The values of some fields, in their order. -/
def pairsOf (fields : List String) (values : FieldMap) : List (String × Value) :=
  fields.filterMap fun k => (values.get? k).map (k, ·)

/-- The identifier of the entity that an entity record is about. -/
def factEntityId (f : FactSchema) (props : FieldMap) : Except SchemaError String := do
  let missing := f.keyFields.filter fun k => !props.contains k
  if missing ≠ [] then throw (.missingKeyFields f.name missing)
  return Identifier.entity f.id (pairsOf f.keyFields props)

/-- The identifier of the entity with the given key values at a side of a relation. -/
def endpointEntityId (r : RelSchema) (side : Side) (keys : FieldMap) :
    Except SchemaError String := do
  let endpoint := r.endpoint side
  let keyFields := r.keyFieldsOf side
  if let some extra := keys.keys.find? fun k => !keyFields.contains k then
    throw (.invalidEndpoint r.name side (.notKeyField extra))
  let missing := keyFields.filter fun k => !keys.contains k
  if missing ≠ [] then throw (.missingEndpointKeyFields r.name side missing)
  let pairs := pairsOf keyFields keys
  checkValues endpoint.name endpoint.signature.find? pairs
  return Identifier.entity endpoint.id pairs

/-- Fails when a given probability is none. -/
def checkProbability (prob : Option Binary64) : Except SchemaError Unit :=
  match prob with
  | some p =>
    if p.inUnitInterval then .ok () else .error (.probabilityOutOfRange "record probability" p)
  | none => .ok ()

/-- The entity record of field values. -/
def ofFact (f : FactSchema) (props : FieldMap) (prob : Option Binary64) (m : Metadata) :
    Except SchemaError Record := do
  checkFactProps f props
  let entity ← factEntityId f props
  return identified ⟨f.id, .entity entity, props, prob, m, none⟩ f.mergePolicy

/-- The relation record of the key values of both endpoints and the values of the props. -/
def ofRelation (r : RelSchema) (sub obj props : FieldMap) (prob : Option Binary64) (m : Metadata) :
    Except SchemaError Record := do
  checkRelProps r props
  let subId ← endpointEntityId r .sub sub
  let objId ← endpointEntityId r .obj obj
  return identified ⟨r.id, .relation subId objId (some ⟨sub, obj⟩), props, prob, m, none⟩
    r.mergePolicy

end Record

end Clausal
