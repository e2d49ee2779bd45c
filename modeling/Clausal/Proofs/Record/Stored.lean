import Clausal.Proofs.Record.Accepted
import Clausal.Proofs.Schema.Normal
import Clausal.Proofs.Schema.Payload
import Clausal.Proofs.Value

/-!
# Stored records are loaded again

Main statement: `Record.ofPayload_toPayload`. A record is loaded as it was, but for the key values
of its endpoints, which are stored only if that is asked for.
-/

namespace Clausal

/-! ### Payloads -/

namespace RecordPayload

open Decode Decode.Members Json

/-- The payload can be written as JSON. -/
structure IsWritable (p : RecordPayload) : Prop where
  props : p.props.IsFinite
  prob : ∀ x ∈ p.prob, x.isFinite = true
  metadata : ∀ e ∈ p.metadata.entries, e.2.IsOrdered
  subKey : ∀ m ∈ p.subKey, m.IsFinite
  objKey : ∀ m ∈ p.objKey, m.IsFinite

theorem ofString?_kind (kind : Option Kind) :
    ofString? (kind.map Kind.text) = kind.elim .null fun k => .str k.text := by
  cases kind <;> rfl

/-- A payload of a record is read as it was written. -/
theorem decode_reads {p : RecordPayload} (writable : p.IsWritable) : decode.Reads p.toJson p := by
  intro r
  rw [decode, toJson, record_of_sublist ?_ (by decide) (by decide)]
  · simp only [bind, Except.bind, pure, Except.pure]
    rw [required_text (s := p.schemaId),
      optional_or_null (x := p.kind) ?_ fun k _ => ⟨word_reads k.lookup_words, str_ne_null _⟩,
      withDefault_ok (a := p.props) ?_ (FieldMap.decode_reads writable.props),
      optional_or_null (x := p.prob) (f := ofFloat) ?_ fun x hx =>
        ⟨float_reads (writable.prob x hx), ofFloat_ne_null (writable.prob x hx)⟩,
      withDefault_ok (a := p.metadata) ?_ (map_json_reads writable.metadata),
      optional_text (x := p.entityId), optional_text (x := p.subEntityId),
      optional_text (x := p.objEntityId), optional_text (x := p.recordId),
      optional_ok (x := p.subKey) (f := FieldMap.toJson) ?_ fun m hm =>
        ⟨FieldMap.decode_reads (writable.subKey m hm), obj_ne_null _⟩,
      optional_ok (x := p.objKey) (f := FieldMap.toJson) ?_ fun m hm =>
        ⟨FieldMap.decode_reads (writable.objKey m hm), obj_ne_null _⟩]
    all_goals simp [List.lookup_append, List.lookup_cons, lookup_member?, ofString?_kind]
  · -- the members are the fields in their order, without the optional ones that are missing
    simp only [List.append_assoc, List.cons_append, List.nil_append]
    iterate 5 refine .cons_cons _ ?_
    iterate 5 apply keys_member?_append
    exact keys_member? ..

end RecordPayload

/-! ### What is stored -/

/-- What a record is about, with the key values of endpoints only if that is asked for. -/
def Identity.keeping (includeKeys : Bool) : Identity → Identity
  | .relation sub obj keys => .relation sub obj (if includeKeys then keys else none)
  | i => i

theorem Schema.Describes.keeping {s : Schema} {i : Identity} {props : FieldMap} (k : Bool)
    (h : s.Describes i props) : s.Describes (i.keeping k) props := by
  cases h with
  | fact checked computed => exact .fact checked computed
  | rel checked computed =>
    cases k with
    | true => exact .rel checked computed
    | false => exact .rel checked nofun

namespace Record

/-- The record, with the key values of endpoints only if that is asked for. -/
def keeping (r : Record) (includeKeys : Bool) : Record :=
  { r with identity := r.identity.keeping includeKeys }

theorem computedId_keeping (r : Record) (k : Bool) : (r.keeping k).computedId = r.computedId := by
  have entities : (r.identity.keeping k).entities = r.identity.entities := by
    cases r.identity <;> rfl
  unfold computedId
  exact congrArg (Identifier.record _ · _) entities

theorem Conforms.keeping {r : Record} {s : Schema} (h : r.Conforms s) (k : Bool) :
    (r.keeping k).Conforms s where
  prob := h.prob
  metadata := h.metadata
  ordered := h.ordered
  content := h.content.keeping k
  recordId := h.recordId.trans (by rw [computedId_keeping])

/-- The payload of a record with all that is known about it. -/
def fullPayload (r : Record) : RecordPayload :=
  { r.basePayload with
    subKey := r.identity.keys?.map (·.sub)
    objKey := r.identity.keys?.map (·.obj) }

theorem toPayload_eq_ok {r : Record} {k : Bool} {p : RecordPayload} (h : r.toPayload k = .ok p) :
    p = (r.keeping k).fullPayload := by
  obtain ⟨schemaId, identity, props, prob, metadata, recordId⟩ := r
  cases identity with
  | entity id => cases k <;> cases h <;> rfl
  | relation sub obj keys =>
    cases k with
    | false =>
      cases h
      rfl
    | true =>
      cases keys <;> cases h
      rfl

/-- Only key values that are asked for and not known keep a record from being stored. -/
theorem toPayload_eq_error_iff {r : Record} {k : Bool} {e : SchemaError} :
    r.toPayload k = .error e ↔ k = true ∧ r.kind = .rel ∧ r.identity.keys? = none ∧
      e = .endpointKeysUnavailable r.schemaId := by
  obtain ⟨schemaId, identity, props, prob, metadata, recordId⟩ := r
  cases identity with
  | entity id => cases k <;> simp [toPayload, kind, Identity.kind]
  | relation sub obj keys =>
    cases k with
    | false => simp [toPayload]
    | true => cases keys <;> simp [toPayload, kind, Identity.kind, Identity.keys?, eq_comm]

/-! ### Loading -/

theorem verify_self (schemaId : String) (field : IdentityField) (id : String) :
    verify schemaId field id id = .ok () := if_pos rfl

theorem identityOfPayload_fullPayload {r : Record} {s : Schema}
    (content : s.Describes r.identity r.props) :
    identityOfPayload r.fullPayload s = .ok r.identity := by
  obtain ⟨schemaId, identity, props, prob, metadata, recordId⟩ := r
  cases content with
  | @fact f id _ checked computed =>
    unfold identityOfPayload entityOfPayload
    dsimp only [fullPayload, basePayload, declared]
    rw [checked, ok_bind, computed, ok_bind, ok_bind, verify_self]
    rfl
  | @rel rel sub obj keys _ checked computed =>
    unfold identityOfPayload relationOfPayload
    dsimp only [fullPayload, basePayload, declared]
    rw [checked, ok_bind, ok_bind, ok_bind]
    cases keys with
    | none => rfl
    | some k =>
      obtain ⟨sub, obj⟩ := computed k rfl
      dsimp only [RecordPayload.endpointKeys?, Identity.keys?, Option.map_some]
      rw [sub, ok_bind, obj, ok_bind, verify_self, ok_bind, verify_self]
      rfl

theorem restore_fullPayload {r : Record} {s : Schema} (h : r.Conforms s) :
    restore s r.fullPayload = .ok r := by
  have read : Metadata.ofMembers r.fullPayload.metadata.entries = .ok r.metadata :=
    Metadata.ofMembers_members h.metadata h.ordered
  have prob : checkProbability r.fullPayload.prob = .ok () := h.prob
  have own : checkRecordId r r.fullPayload.recordId = .ok () := by
    have declared : r.fullPayload.recordId = r.recordId := rfl
    rw [declared]
    cases id : r.recordId with
    | none => rfl
    | some id' =>
      unfold checkRecordId
      rw [id]
      exact verify_self ..
  unfold restore
  rw [prob, ok_bind, read, ok_bind, identityOfPayload_fullPayload h.content, ok_bind]
  -- building the record again changes nothing, since its own identifier is the computed one
  have again : Record.identified ⟨r.fullPayload.schemaId, r.identity, r.fullPayload.props,
      r.fullPayload.prob, r.metadata, none⟩ s.mergePolicy = r := h.identified
  simp only [again]
  rw [own]
  rfl

/-- A record that conforms to its schema is loaded as it was stored. -/
theorem ofPayload_fullPayload {r : Record} {s : Schema} {source : Source} (h : r.Conforms s)
    (found : source r.schemaId = .ok s) : ofPayload r.fullPayload source = .ok r := by
  have kinds : ∀ k ∈ r.fullPayload.kind, k = s.kind := fun k hk =>
    Option.mem_some_iff.1 hk ▸ h.content.kind
  rw [ofPayload_eq_restore found kinds]
  exact restore_fullPayload h

theorem isProbability_of_checkProbability {prob : Option Binary64}
    (ok : checkProbability prob = .ok ()) : ∀ x ∈ prob, x.IsProbability := by
  intro x hx
  cases hx
  unfold checkProbability at ok
  dsimp only at ok
  split at ok
  case isTrue inside => exact (Binary64.inUnitInterval_iff x).1 inside
  case isFalse => cases ok

/-- All floating-point values of a record are finite. -/
structure IsFinite (r : Record) : Prop where
  props : r.props.IsFinite
  keys : ∀ k ∈ r.identity.keys?, k.sub.IsFinite ∧ k.obj.IsFinite

theorem IsFinite.keeping {r : Record} (finite : r.IsFinite) (k : Bool) : (r.keeping k).IsFinite where
  props := finite.props
  keys := by
    obtain ⟨schemaId, identity, props, prob, metadata, recordId⟩ := r
    cases identity with
    | entity id => nofun
    | relation sub obj keys =>
      cases k with
      | true => exact finite.keys
      | false => nofun

theorem isWritable_fullPayload {r : Record} {s : Schema} (conforms : r.Conforms s)
    (finite : r.IsFinite) : r.fullPayload.IsWritable where
  props := finite.props
  prob x hx := (isProbability_of_checkProbability conforms.prob x hx).1
  metadata e he :=
    Metadata.isOrdered_of_mem_members conforms.ordered e (SortedMap.mem_of_mem_ofList he)
  subKey m hm := by
    obtain ⟨k, hk, rfl⟩ := Option.map_eq_some_iff.1 hm
    exact (finite.keys k hk).1
  objKey m hm := by
    obtain ⟨k, hk, rfl⟩ := Option.map_eq_some_iff.1 hm
    exact (finite.keys k hk).2

/-- **A record is loaded from its payload.** The payload of a record with finite values is read as
it was written, and loading it gives the record, with the key values of its endpoints if they were
asked for. Nothing but those key values keeps a record from being stored. -/
theorem ofPayload_toPayload {source : Source} {r : Record} (accepted : r.Accepted source)
    (finite : r.IsFinite) (includeKeys : Bool) :
    (∀ p, r.toPayload includeKeys = .ok p →
      Decode.ofJson RecordPayload.decode p.toJson = .ok p ∧
        ofPayload p source = .ok (r.keeping includeKeys)) ∧
    ∀ e, r.toPayload includeKeys = .error e ↔ includeKeys = true ∧ r.kind = .rel ∧
      r.identity.keys? = none ∧ e = .endpointKeysUnavailable r.schemaId := by
  refine ⟨fun p h => ?_, fun e => toPayload_eq_error_iff⟩
  obtain ⟨s, found, conforms⟩ := accepted.conforms
  have kept := conforms.keeping includeKeys
  obtain rfl := toPayload_eq_ok h
  have kinds : ∀ k ∈ (r.keeping includeKeys).fullPayload.kind, k = s.kind := fun k hk =>
    Option.mem_some_iff.1 hk ▸ kept.content.kind
  constructor
  · exact (RecordPayload.decode_reads
      (isWritable_fullPayload kept (finite.keeping includeKeys))).ofJson
  · rw [ofPayload_eq_restore found kinds]
    exact restore_fullPayload kept

/-- The value by which a person is known. -/
def personKeys (number : Int64) : FieldMap := .ofList [("number", .int number)]

/-- What is said about an acquaintance: that it is certain, and on which page of a register. -/
def registered : RecordOptions where
  prob := some .one
  metadata := { Metadata.empty with
    source := some "register"
    provenance := some (.ofList [("at", .obj [("line", .num (.int 4)), ("page", .num (.int 3))])]) }
  mode := .strict

/-- Number 1 knows number 2 since 1999. -/
def acquaintance : Record :=
  identified
    { schemaId := RelSchema.knows.id
      identity := .relation (Identifier.entity FactSchema.person.id [("number", .int 1)])
        (Identifier.entity FactSchema.person.id [("number", .int 2)])
        (some ⟨personKeys 1, personKeys 2⟩)
      props := .ofList [("since", .int 1999)]
      prob := registered.prob
      metadata := registered.metadata
      recordId := none }
    .keepAll

theorem ofTerms_acquaintance :
    ofTerms (.rel .knows) (.relation (.keys (personKeys 1)) (.keys (personKeys 2))
      (.named (.ofList [("since", .int 1999)]) .empty)) registered = .ok acquaintance := rfl

theorem accepted_acquaintance : acquaintance.Accepted fun _ => .ok (.rel .knows) := by
  refine .terms (s := .rel .knows) rfl (fun p hp e he => ?_) ofTerms_acquaintance
  cases hp
  cases List.mem_singleton.1 he
  exact ⟨by decide, trivial, trivial, trivial⟩

theorem ofPayload_toPayload_acquaintance :
    acquaintance.Accepted (fun _ => .ok (.rel .knows)) ∧ acquaintance.IsFinite ∧
    (∀ p, acquaintance.toPayload true = .ok p →
      Decode.ofJson RecordPayload.decode p.toJson = .ok p ∧
        ofPayload p (fun _ => .ok (.rel .knows)) = .ok (acquaintance.keeping true)) ∧
    ∀ e, acquaintance.toPayload true = .error e ↔ true = true ∧ acquaintance.kind = .rel ∧
      acquaintance.identity.keys? = none ∧ e = .endpointKeysUnavailable acquaintance.schemaId := by
  have finite : acquaintance.IsFinite := by
    refine ⟨fun e he => ?_, fun k hk => ?_⟩
    · cases List.mem_singleton.1 he
      trivial
    · cases hk
      refine ⟨fun e he => ?_, fun e he => ?_⟩
      · cases List.mem_singleton.1 he
        trivial
      · cases List.mem_singleton.1 he
        trivial
  exact ⟨accepted_acquaintance, finite, ofPayload_toPayload accepted_acquaintance finite true⟩

end Record

end Clausal
