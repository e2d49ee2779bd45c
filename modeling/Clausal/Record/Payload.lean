import Clausal.Record.Terms
import Clausal.Registry.Basic

/-!
# Stored records

A payload declares the identifiers of a record. Loading checks the record anew and compares every
identifier that it can compute; those of endpoints without stored key values are taken as declared.
-/

namespace Clausal

/-- A record as it is stored. -/
structure RecordPayload where
  schemaId : String
  kind : Option Kind
  props : FieldMap
  prob : Option Binary64
  metadata : SortedMap String Json
  entityId : Option String
  subEntityId : Option String
  objEntityId : Option String
  recordId : Option String
  subKey : Option FieldMap
  objKey : Option FieldMap

namespace RecordPayload

def decode : Decoder RecordPayload := fun r d => do
  let m ← Decode.record "InstancePayload"
    (["schema_id", "kind", "props", "prob", "meta", "entity_id", "sub_entity_id", "obj_entity_id",
      "record_id", "sub_key", "obj_key"].map Decode.field) false r d
  return {
    schemaId := ← m.required "schema_id" Decode.text
    kind := ← m.optional "kind" (Decode.word Kind.words)
    props := ← m.withDefault "props" .empty FieldMap.decode
    prob := ← m.optional "prob" Decode.float
    metadata := ← m.withDefault "meta" .empty (Decode.map Decode.json)
    entityId := ← m.optional "entity_id" Decode.text
    subEntityId := ← m.optional "sub_entity_id" Decode.text
    objEntityId := ← m.optional "obj_entity_id" Decode.text
    recordId := ← m.optional "record_id" Decode.text
    subKey := ← m.optional "sub_key" FieldMap.decode
    objKey := ← m.optional "obj_key" FieldMap.decode }

def toJson (p : RecordPayload) : Json :=
  .obj ([("schema_id", .str p.schemaId), ("kind", .ofString? (p.kind.map Kind.text)),
      ("props", p.props.toJson), ("prob", p.prob.elim .null .ofFloat),
      ("meta", .obj p.metadata.entries)] ++
    Json.member? "entity_id" (p.entityId.map .str) ++
    Json.member? "sub_entity_id" (p.subEntityId.map .str) ++
    Json.member? "obj_entity_id" (p.objEntityId.map .str) ++
    Json.member? "record_id" (p.recordId.map .str) ++
    Json.member? "sub_key" (p.subKey.map FieldMap.toJson) ++
    Json.member? "obj_key" (p.objKey.map FieldMap.toJson))

/-- The key values of both endpoints, when both are stored. -/
def endpointKeys? (p : RecordPayload) : Option EndpointKeys :=
  match p.subKey, p.objKey with
  | some sub, some obj => some ⟨sub, obj⟩
  | _, _ => none

end RecordPayload

namespace Record

/-- The payload of a record without the key values of endpoints. -/
def basePayload (r : Record) : RecordPayload where
  schemaId := r.schemaId
  kind := some r.kind
  props := r.props
  prob := r.prob
  metadata := .ofList r.metadata.members
  entityId := match r.identity with
    | .entity id => some id
    | .relation .. => none
  subEntityId := match r.identity with
    | .entity _ => none
    | .relation sub _ _ => some sub
  objEntityId := match r.identity with
    | .entity _ => none
    | .relation _ obj _ => some obj
  recordId := r.recordId
  subKey := none
  objKey := none

/-- The record as it is stored, with the key values of its endpoints if that is asked for. -/
def toPayload (r : Record) (includeKeys : Bool) : Except SchemaError RecordPayload :=
  match includeKeys, r.identity with
  | true, .relation _ _ none => .error (.endpointKeysUnavailable r.schemaId)
  | true, .relation _ _ (some keys) =>
    .ok { r.basePayload with subKey := some keys.sub, objKey := some keys.obj }
  | _, _ => .ok r.basePayload

/-- A declared identifier. -/
def declared (schemaId : String) (field : IdentityField) (id : Option String) :
    Except SchemaError String :=
  match id with
  | some id => .ok id
  | none => .error (.missingIdentity schemaId field)

/-- Fails when a declared identifier is not the computed one. -/
def verify (schemaId : String) (field : IdentityField) (declared computed : String) :
    Except SchemaError Unit :=
  if declared = computed then .ok ()
  else .error (.recordIdentityMismatch schemaId field declared computed)

/-- What a stored entity record is about. -/
def entityOfPayload (f : FactSchema) (p : RecordPayload) : Except SchemaError Identity := do
  checkFactProps f p.props
  let computed ← factEntityId f p.props
  verify p.schemaId .entity (← declared p.schemaId .entity p.entityId) computed
  return .entity computed

/-- What a stored relation record is about. -/
def relationOfPayload (r : RelSchema) (p : RecordPayload) : Except SchemaError Identity := do
  checkRelProps r p.props
  let subId ← declared p.schemaId (.endpoint .sub) p.subEntityId
  let objId ← declared p.schemaId (.endpoint .obj) p.objEntityId
  if let some keys := p.endpointKeys? then
    let computedSub ← endpointEntityId r .sub keys.sub
    let computedObj ← endpointEntityId r .obj keys.obj
    verify p.schemaId (.endpoint .sub) subId computedSub
    verify p.schemaId (.endpoint .obj) objId computedObj
  return .relation subId objId p.endpointKeys?

/-- Fails when a declared record identifier is not that of the record, which has one only if its
predicate keeps all records. -/
def checkRecordId (r : Record) (declared : Option String) : Except SchemaError Unit :=
  match declared, r.recordId with
  | none, _ => .ok ()
  | some id, some computed => verify r.schemaId .record id computed
  | some _, none => .error (.unexpectedRecordId r.schemaId)

/-- The record of a payload. -/
def ofPayload (p : RecordPayload) (source : Source) : Except SchemaError Record := do
  let s ← source p.schemaId
  if let some kind := p.kind then
    if kind ≠ s.kind then throw (.kindMismatch p.schemaId s.kind kind)
  checkProbability p.prob
  let m ← Metadata.ofMembers p.metadata.entries
  let identity ← match s with
    | .fact f => entityOfPayload f p
    | .rel r => relationOfPayload r p
  let record := identified ⟨p.schemaId, identity, p.props, p.prob, m, none⟩ s.mergePolicy
  checkRecordId record p.recordId
  return record

end Record

end Clausal
