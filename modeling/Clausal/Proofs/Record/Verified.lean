import Clausal.Proofs.Record.KeyValues
import Clausal.Proofs.Record.Stored
import Clausal.Proofs.Schema.Spelled

/-!
# What loading verifies

Main statement: `ofPayload_verifies`. A stored record declares the identifiers of the entities that
it is about. Loading computes the one of an entity record from its props. Those of a relation record
are computed when the key values of both endpoints are stored; if only one endpoint has them, they
are not looked at, and an identifier beside them that is not theirs goes through
(`ofPayload_forged`).
-/

namespace Clausal

/-! ### Identifiers from key values -/

/-- The identifier of the entity with the given field values. -/
def FactSchema.keyId (f : FactSchema) (values : FieldMap) : String :=
  Identifier.ofText (Record.keyText f.id f.keyFields values)

namespace RelSchema

/-- The identifier of the entity with the given key values at a side. -/
def keyId (rel : RelSchema) (side : Side) (keys : FieldMap) : String :=
  Identifier.ofText (Record.keyText (rel.endpoint side).id (rel.keyFieldsOf side) keys)

/-- Key values of an entity at a side: exactly its key fields have values, of their datatypes. -/
structure IsKey (rel : RelSchema) (side : Side) (keys : FieldMap) : Prop where
  fields : ∀ k, keys.contains k = true ↔ k ∈ rel.keyFieldsOf side
  fits : ∀ k v, keys.get? k = some v →
    ∀ a ∈ (rel.endpoint side).signature.find? k, v.fits a.datatype = true

end RelSchema

namespace Record

theorem mem_pairsOf {fields : List String} {values : FieldMap} {p : String × Value} :
    p ∈ pairsOf fields values ↔ p.1 ∈ fields ∧ values.get? p.1 = some p.2 := by
  obtain ⟨k, v⟩ := p
  simp only [pairsOf, List.mem_filterMap, Option.map_eq_some_iff, Prod.mk.injEq]
  constructor
  · rintro ⟨_, mem, _, found, rfl, rfl⟩
    exact ⟨mem, found⟩
  · rintro ⟨mem, found⟩
    exact ⟨k, mem, v, found, rfl, rfl⟩

theorem checkValue_eq_ok_iff {predicate field datatype : String} {v : Value} :
    checkValue predicate field datatype v = .ok () ↔ v.fits datatype = true := by
  unfold checkValue
  split <;> simp_all

theorem checkValues_eq_ok_iff {predicate : String} {arg? : String → Option Arg}
    {pairs : List (String × Value)} : checkValues predicate arg? pairs = .ok () ↔
      ∀ p ∈ pairs, ∀ a ∈ arg? p.1, p.2.fits a.datatype = true := by
  induction pairs with
  | nil => simp [checkValues]
  | cons p rest ih =>
    rw [checkValues, List.forall_mem_cons, ← ih]
    cases arg? p.1 with
    | none => simp
    | some a =>
      simp only [check_bind_eq_ok, checkValue_eq_ok_iff, Option.mem_some_iff, forall_eq']

theorem factEntityId_eq_ok_iff {f : FactSchema} {props : FieldMap} {id : String} :
    factEntityId f props = .ok id ↔
      (∀ k ∈ f.keyFields, props.contains k = true) ∧ id = f.keyId props := by
  constructor
  · intro h
    obtain ⟨complete, eq⟩ := identifies_of_factEntityId h
    exact ⟨complete, eq⟩
  · rintro ⟨complete, rfl⟩
    have none : f.keyFields.filter (fun k => !props.contains k) = [] :=
      List.filter_eq_nil_iff.2 fun k hk => by simp [complete k hk]
    unfold factEntityId
    dsimp only
    rw [if_neg (not_not.2 none)]
    rfl

theorem endpointEntityId_eq_ok_iff {rel : RelSchema} {side : Side} {keys : FieldMap} {id : String} :
    endpointEntityId rel side keys = .ok id ↔ rel.IsKey side keys ∧ id = rel.keyId side keys := by
  unfold endpointEntityId
  dsimp only
  -- no key beyond the key fields and none of them missing: the keys are the key fields
  cases other : keys.keys.find? fun k => !(rel.keyFieldsOf side).contains k with
  | some extra =>
    refine ⟨nofun, fun ⟨isKey, _⟩ => ?_⟩
    have held := SortedMap.mem_keys_iff.1 (List.mem_of_find?_eq_some other)
    have unknown := List.find?_some other
    simp [(isKey.fields extra).1 held] at unknown
  | none =>
    have known (k) (hk : keys.contains k = true) : k ∈ rel.keyFieldsOf side := by
      simpa using List.find?_eq_none.1 other k (SortedMap.mem_keys_iff.2 hk)
    dsimp only
    split
    case isTrue missing =>
      refine ⟨nofun, fun ⟨isKey, _⟩ => absurd (List.filter_eq_nil_iff.2 fun k hk => ?_) missing⟩
      simp [(isKey.fields k).2 hk]
    case isFalse complete =>
      have fields (k) : keys.contains k = true ↔ k ∈ rel.keyFieldsOf side :=
        ⟨known k, contains_of_missing_eq_nil complete k⟩
      rw [check_bind_eq_ok, checkValues_eq_ok_iff]
      constructor
      · rintro ⟨fits, h⟩
        cases h
        refine ⟨⟨fields, fun k v found => ?_⟩, rfl⟩
        have held : keys.contains k = true := by rw [SortedMap.contains, found]; rfl
        exact fits (k, v) (mem_pairsOf.2 ⟨known k held, found⟩)
      · rintro ⟨isKey, rfl⟩
        exact ⟨fun p hp => isKey.fits p.1 p.2 (mem_pairsOf.1 hp).2, rfl⟩

end Record

/-! ### What a payload declares -/

namespace RecordPayload

def endpointIdAt (p : RecordPayload) : Side → Option String
  | .sub => p.subEntityId
  | .obj => p.objEntityId

def keyAt (p : RecordPayload) : Side → Option FieldMap
  | .sub => p.subKey
  | .obj => p.objKey

/-- The key values that are stored for a side are those of an entity, and its identifier is the one
that is declared. -/
def VerifiedAt (p : RecordPayload) (rel : RelSchema) (side : Side) : Prop :=
  ∀ keys ∈ p.keyAt side, rel.IsKey side keys ∧ p.endpointIdAt side = some (rel.keyId side keys)

/-- A stored record of a schema is about what its identifiers say. Those of a relation record are
verified when the key values of both sides are stored. -/
inductive Verified (p : RecordPayload) : Schema → Identity → Prop
  | entity {f} (checked : Record.checkFactProps f p.props = .ok ())
      (complete : ∀ k ∈ f.keyFields, p.props.contains k = true)
      (declared : p.entityId = some (f.keyId p.props)) :
      Verified p (.fact f) (.entity (f.keyId p.props))
  | relation {rel sub obj} (checked : Record.checkRelProps rel p.props = .ok ())
      (subDeclared : p.subEntityId = some sub) (objDeclared : p.objEntityId = some obj)
      (verified : p.endpointKeys? ≠ none → ∀ side, p.VerifiedAt rel side) :
      Verified p (.rel rel) (.relation sub obj p.endpointKeys?)

end RecordPayload

namespace Record

theorem declared_eq_ok_iff {schemaId id : String} {field : IdentityField} {given : Option String} :
    declared schemaId field given = .ok id ↔ given = some id := by
  cases given <;> simp [declared]

theorem verify_eq_ok_iff {schemaId given computed : String} {field : IdentityField} :
    verify schemaId field given computed = .ok () ↔ given = computed :=
  ⟨verify_eq_ok, fun h => h ▸ verify_self ..⟩

theorem entityOfPayload_eq_ok_iff {f : FactSchema} {p : RecordPayload} {i : Identity} :
    entityOfPayload f p = .ok i ↔ p.Verified (.fact f) i := by
  constructor
  · intro h
    obtain ⟨checked, h⟩ := check_bind_eq_ok.1 h
    obtain ⟨id, computed, h⟩ := bind_eq_ok.1 h
    obtain ⟨given, declared, h⟩ := bind_eq_ok.1 h
    obtain ⟨same, h⟩ := check_bind_eq_ok.1 h
    cases h
    obtain ⟨complete, rfl⟩ := factEntityId_eq_ok_iff.1 computed
    rw [declared_eq_ok_iff, verify_eq_ok same] at declared
    exact .entity checked complete declared
  · intro h
    cases h with
    | entity checked complete declared =>
      unfold entityOfPayload
      rw [checked, ok_bind, factEntityId_eq_ok_iff.2 ⟨complete, rfl⟩, ok_bind,
        declared_eq_ok_iff.2 declared, ok_bind, verify_self]
      rfl

theorem endpointKeys?_eq_some_iff {p : RecordPayload} {keys : EndpointKeys} :
    p.endpointKeys? = some keys ↔ ∀ side, p.keyAt side = some (keys.at side) := by
  constructor
  · intro h side
    unfold RecordPayload.endpointKeys? at h
    split at h
    case h_1 sub obj subStored objStored =>
      cases h
      cases side with
      | sub => exact subStored
      | obj => exact objStored
    case h_2 => cases h
  · intro h
    have sub : p.subKey = some keys.sub := h .sub
    have obj : p.objKey = some keys.obj := h .obj
    rw [RecordPayload.endpointKeys?, sub, obj]

theorem relationOfPayload_eq_ok_iff {rel : RelSchema} {p : RecordPayload} {i : Identity} :
    relationOfPayload rel p = .ok i ↔ p.Verified (.rel rel) i := by
  constructor
  · intro h
    obtain ⟨checked, h⟩ := check_bind_eq_ok.1 h
    obtain ⟨sub, subDeclared, h⟩ := bind_eq_ok.1 h
    obtain ⟨obj, objDeclared, h⟩ := bind_eq_ok.1 h
    rw [declared_eq_ok_iff] at subDeclared objDeclared
    cases stored : p.endpointKeys? with
    | none =>
      -- also with the key values of one side: the declared identifiers are taken as they are
      rw [stored] at h
      cases h
      exact stored ▸ .relation checked subDeclared objDeclared (absurd stored)
    | some keys =>
      rw [stored] at h
      obtain ⟨subId, subComputed, h⟩ := bind_eq_ok.1 h
      obtain ⟨objId, objComputed, h⟩ := bind_eq_ok.1 h
      obtain ⟨subSame, h⟩ := check_bind_eq_ok.1 h
      obtain ⟨objSame, h⟩ := check_bind_eq_ok.1 h
      cases h
      refine stored ▸ .relation checked subDeclared objDeclared fun _ side key hk => ?_
      cases hk.symm.trans (endpointKeys?_eq_some_iff.1 stored side)
      cases side with
      | sub =>
        obtain ⟨isKey, eq⟩ := endpointEntityId_eq_ok_iff.1 subComputed
        exact ⟨isKey, eq ▸ verify_eq_ok subSame ▸ subDeclared⟩
      | obj =>
        obtain ⟨isKey, eq⟩ := endpointEntityId_eq_ok_iff.1 objComputed
        exact ⟨isKey, eq ▸ verify_eq_ok objSame ▸ objDeclared⟩
  · intro h
    cases h with
    | @relation _ sub obj checked subDeclared objDeclared verified =>
      unfold relationOfPayload
      rw [checked, ok_bind, declared_eq_ok_iff.2 subDeclared, ok_bind,
        declared_eq_ok_iff.2 objDeclared, ok_bind]
      cases stored : p.endpointKeys? with
      | none => rfl
      | some keys =>
        have computed (side) : endpointEntityId rel side (keys.at side) =
            .ok (rel.keyId side (keys.at side)) ∧
              p.endpointIdAt side = some (rel.keyId side (keys.at side)) := by
          obtain ⟨isKey, same⟩ := verified (by rw [stored]; nofun) side _
            (endpointKeys?_eq_some_iff.1 stored side)
          exact ⟨endpointEntityId_eq_ok_iff.2 ⟨isKey, rfl⟩, same⟩
        obtain ⟨subComputed, subSame⟩ := computed .sub
        obtain ⟨objComputed, objSame⟩ := computed .obj
        cases subDeclared.symm.trans subSame
        cases objDeclared.symm.trans objSame
        dsimp only [EndpointKeys.at] at subComputed objComputed ⊢
        rw [subComputed, ok_bind, objComputed, ok_bind, verify_self, ok_bind, verify_self]
        rfl

theorem identityOfPayload_eq_ok_iff {s : Schema} {p : RecordPayload} {i : Identity} :
    identityOfPayload p s = .ok i ↔ p.Verified s i := by
  cases s with
  | fact f => exact entityOfPayload_eq_ok_iff
  | rel rel => exact relationOfPayload_eq_ok_iff

/-! ### Records of payloads -/

theorem computedId_identified (r : Record) (policy : MergePolicy) :
    (r.identified policy).computedId = r.computedId := by
  unfold identified
  split <;> rfl

theorem checkRecordId_identified {r : Record} {policy : MergePolicy} {given : Option String}
    (new : r.recordId = none) : checkRecordId (r.identified policy) given = .ok () ↔
      ∀ id ∈ given, policy = .keepAll ∧ id = r.computedId := by
  cases given with
  | none => exact ⟨fun _ => nofun, fun _ => rfl⟩
  | some id =>
    simp only [Option.mem_some_iff, forall_eq']
    unfold identified
    split
    case isTrue all => exact verify_eq_ok_iff.trans (and_iff_right all).symm
    case isFalse not =>
      unfold checkRecordId
      rw [new]
      exact ⟨nofun, fun h => absurd h.1 not⟩

/-- A payload is loaded exactly when its schema is known and of its kind, its probability and its
metadata are in order, and its identifiers are verified. -/
theorem ofPayload_eq_ok_iff {p : RecordPayload} {source : Source} {r : Record} :
    ofPayload p source = .ok r ↔ ∃ s m i, source p.schemaId = .ok s ∧ (∀ k ∈ p.kind, k = s.kind) ∧
      checkProbability p.prob = .ok () ∧ Metadata.ofMembers p.metadata.entries = .ok m ∧
      p.Verified s i ∧ r = identified ⟨p.schemaId, i, p.props, p.prob, m, none⟩ s.mergePolicy ∧
      ∀ id ∈ p.recordId, s.mergePolicy = .keepAll ∧ id = r.computedId := by
  constructor
  · intro h
    obtain ⟨s, found, -⟩ := bind_eq_ok.1 h
    have kinds := kind_of_ofPayload found h
    rw [ofPayload_eq_restore found kinds] at h
    obtain ⟨prob, h⟩ := check_bind_eq_ok.1 h
    obtain ⟨m, read, h⟩ := bind_eq_ok.1 h
    obtain ⟨i, verified, h⟩ := bind_eq_ok.1 h
    obtain ⟨own, h⟩ := check_bind_eq_ok.1 h
    cases h
    refine ⟨s, m, i, found, kinds, prob, read, identityOfPayload_eq_ok_iff.1 verified, rfl, ?_⟩
    rw [computedId_identified]
    exact (checkRecordId_identified rfl).1 own
  · rintro ⟨s, m, i, found, kinds, prob, read, verified, rfl, own⟩
    rw [computedId_identified] at own
    rw [ofPayload_eq_restore found kinds, restore, prob, ok_bind, read, ok_bind,
      identityOfPayload_eq_ok_iff.2 verified, ok_bind]
    dsimp only
    rw [(checkRecordId_identified rfl).2 own]
    rfl

end Record

/-! ### Key values of one endpoint -/

/-- The payload without key values of endpoints. -/
def RecordPayload.withoutKeys (p : RecordPayload) : RecordPayload :=
  { p with subKey := none, objKey := none }

namespace Record

variable {p : RecordPayload}

theorem relationOfPayload_withoutKeys (rel : RelSchema) (lone : p.endpointKeys? = none) :
    relationOfPayload rel p.withoutKeys = relationOfPayload rel p := by
  unfold relationOfPayload
  rw [lone]
  rfl

theorem ofPayload_withoutKeys (source : Source) (lone : p.endpointKeys? = none) :
    ofPayload p.withoutKeys source = ofPayload p source := by
  unfold ofPayload
  simp only [relationOfPayload_withoutKeys _ lone]
  rfl

/-- **What loading verifies.** The identifier of an accepted entity record is that of its key fields,
and one of its own is that of the record. The identifiers of the endpoints of a relation record are
those of the key values, when these are stored for both; key values of one endpoint alone change
nothing. -/
theorem ofPayload_verifies {source : Source} {r : Record} (h : ofPayload p source = .ok r) :
    ∃ s, source p.schemaId = .ok s ∧ p.Verified s r.identity ∧
      (∀ id ∈ p.recordId, s.mergePolicy = .keepAll ∧ id = r.computedId) ∧
      (p.endpointKeys? = none → ofPayload p.withoutKeys source = .ok r) := by
  obtain ⟨s, m, i, found, -, -, -, verified, rfl, own⟩ := ofPayload_eq_ok_iff.1 h
  rw [identity_identified]
  exact ⟨s, found, verified, own, fun lone => (ofPayload_withoutKeys source lone).trans h⟩

/-- Someone knows number 2 since 1999: the key value of the one is stored beside an identifier that
is not theirs, and that of the other is not stored. -/
def forged : RecordPayload where
  schemaId := RelSchema.knows.id
  kind := some .rel
  props := .ofList [("since", .int 1999)]
  prob := none
  metadata := .empty
  entityId := none
  subEntityId := some "forged"
  objEntityId := some (RelSchema.knows.keyId .obj (personKeys 2))
  recordId := none
  subKey := some (personKeys 1)
  objKey := none

theorem keyId_knows_ne_forged : RelSchema.knows.keyId .sub (personKeys 1) ≠ "forged" := by
  -- the identifier of the schema inside has to be spelled out before the digest can be evaluated
  have sub : (RelSchema.knows.endpoint .sub).id = _ := FactSchema.id_person
  rw [RelSchema.keyId, sub]
  decide +kernel

/-- The record is accepted although the identifier of the one is not that of the key value. -/
theorem ofPayload_forged :
    (∃ r, ofPayload forged (fun _ => .ok (.rel .knows)) = .ok r) ∧
      ¬ forged.VerifiedAt .knows .sub := by
  refine ⟨⟨_, rfl⟩, fun verified => ?_⟩
  obtain ⟨-, same⟩ := verified (personKeys 1) rfl
  exact keyId_knows_ne_forged (Option.some.inj same).symm

theorem ofPayload_verifies_acquaintance :
    ofPayload acquaintance.fullPayload (fun _ => .ok (.rel .knows)) = .ok acquaintance ∧
    ∃ s, .ok (.rel .knows) = (.ok s : Except SchemaError Schema) ∧
      acquaintance.fullPayload.Verified s acquaintance.identity ∧
      (∀ id ∈ acquaintance.fullPayload.recordId,
        s.mergePolicy = .keepAll ∧ id = acquaintance.computedId) ∧
      (acquaintance.fullPayload.endpointKeys? = none →
        ofPayload acquaintance.fullPayload.withoutKeys (fun _ => .ok (.rel .knows)) =
          .ok acquaintance) := by
  have loaded : ofPayload acquaintance.fullPayload (fun _ => .ok (.rel .knows)) =
      .ok acquaintance := by
    obtain ⟨s, found, conforms⟩ := accepted_acquaintance.conforms
    cases found
    exact (ofPayload_eq_restore rfl (by decide)).trans (restore_fullPayload conforms)
  exact ⟨loaded, ofPayload_verifies loaded⟩

end Record

end Clausal
