import Clausal.Proofs.Metadata
import Clausal.Proofs.Outcomes
import Clausal.Record.Payload

/-!
# What holds of every record

A record comes from terms or from a payload (`Record.Accepted`). Either way it conforms to its
schema (`Record.Accepted.conforms`): its content passes the checks of the schema, and its
identifiers are those that are computed from its content.
-/

namespace Clausal

/-- What a record is about and its props pass the checks of a schema. Key values of endpoints are
checked when they are known. -/
inductive Schema.Describes : Schema → Identity → FieldMap → Prop
  | fact {f id props} (checked : Record.checkFactProps f props = .ok ())
      (computed : Record.factEntityId f props = .ok id) : Describes (.fact f) (.entity id) props
  | rel {r sub obj keys props} (checked : Record.checkRelProps r props = .ok ())
      (computed : ∀ k ∈ keys, Record.endpointEntityId r .sub k.sub = .ok sub ∧
        Record.endpointEntityId r .obj k.obj = .ok obj) :
      Describes (.rel r) (.relation sub obj keys) props

theorem Schema.Describes.kind {s : Schema} {i : Identity} {props : FieldMap}
    (h : s.Describes i props) : i.kind = s.kind := by
  cases h <;> rfl

namespace Record

/-- A record is as its schema wants it. -/
structure Conforms (r : Record) (s : Schema) : Prop where
  prob : checkProbability r.prob = .ok ()
  metadata : r.metadata.check = .ok ()
  ordered : r.metadata.IsOrdered
  content : s.Describes r.identity r.props
  recordId : r.recordId = if s.mergePolicy = .keepAll then some r.computedId else none

theorem schemaId_identified (r : Record) (policy : MergePolicy) :
    (r.identified policy).schemaId = r.schemaId := by
  unfold identified
  split <;> rfl

theorem identity_identified (r : Record) (policy : MergePolicy) :
    (r.identified policy).identity = r.identity := by
  unfold identified
  split <;> rfl

theorem props_identified (r : Record) (policy : MergePolicy) :
    (r.identified policy).props = r.props := by
  unfold identified
  split <;> rfl

theorem prob_identified (r : Record) (policy : MergePolicy) :
    (r.identified policy).prob = r.prob := by
  unfold identified
  split <;> rfl

theorem metadata_identified (r : Record) (policy : MergePolicy) :
    (r.identified policy).metadata = r.metadata := by
  unfold identified
  split <;> rfl

theorem conforms_identified {r : Record} {s : Schema} {policy : MergePolicy}
    (keep : s.mergePolicy = policy) (prob : checkProbability r.prob = .ok ())
    (metadata : r.metadata.check = .ok ()) (ordered : r.metadata.IsOrdered)
    (content : s.Describes r.identity r.props) (new : r.recordId = none) :
    (r.identified policy).Conforms s := by
  subst keep
  unfold identified
  split
  case isTrue all => exact ⟨prob, metadata, ordered, content, (if_pos all).symm⟩
  case isFalse not => exact ⟨prob, metadata, ordered, content, new.trans (if_neg not).symm⟩

/-- The identifier of its own is what a record gets when it is made. -/
theorem Conforms.identified {r : Record} {s : Schema} (h : r.Conforms s) :
    Record.identified { r with recordId := none } s.mergePolicy = r := by
  obtain ⟨schemaId, identity, props, prob, metadata, recordId⟩ := r
  have own := h.recordId
  dsimp only at own
  unfold Record.identified
  split
  case isTrue all =>
    rw [if_pos all] at own
    rw [own]
    rfl
  case isFalse not =>
    rw [if_neg not] at own
    rw [own]

/-! ### Records of terms -/

section Terms

variable {terms : Terms} {o : RecordOptions} {r : Record}

theorem ofTerms_fact_eq_ok {f : FactSchema} (h : ofTerms (.fact f) terms o = .ok r) :
    ∃ props id, terms.factProps f = .ok props ∧ checkFactProps f props = .ok () ∧
      factEntityId f props = .ok id ∧
      r = identified ⟨f.id, .entity id, props, o.prob, o.metadata, none⟩ f.mergePolicy := by
  obtain ⟨_, -, h⟩ := bind_eq_ok.1 h
  obtain ⟨_, -, h⟩ := bind_eq_ok.1 h
  obtain ⟨props, given, h⟩ := bind_eq_ok.1 h
  obtain ⟨_, checked, h⟩ := bind_eq_ok.1 h
  obtain ⟨id, computed, h⟩ := bind_eq_ok.1 h
  exact ⟨props, id, given, checked, computed, (Except.ok.inj h).symm⟩

theorem ofTerms_rel_eq_ok {rel : RelSchema} (h : ofTerms (.rel rel) terms o = .ok r) :
    ∃ c sub obj, terms.relationContent rel o.mode = .ok c ∧
      checkRelProps rel c.props = .ok () ∧ endpointEntityId rel .sub c.sub = .ok sub ∧
      endpointEntityId rel .obj c.obj = .ok obj ∧
      r = identified ⟨rel.id, .relation sub obj (some ⟨c.sub, c.obj⟩), c.props, o.prob, o.metadata,
        none⟩ rel.mergePolicy := by
  obtain ⟨_, -, h⟩ := bind_eq_ok.1 h
  obtain ⟨_, -, h⟩ := bind_eq_ok.1 h
  obtain ⟨c, given, h⟩ := bind_eq_ok.1 h
  obtain ⟨_, checked, h⟩ := bind_eq_ok.1 h
  obtain ⟨sub, subComputed, h⟩ := bind_eq_ok.1 h
  obtain ⟨obj, objComputed, h⟩ := bind_eq_ok.1 h
  exact ⟨c, sub, obj, given, checked, subComputed, objComputed, (Except.ok.inj h).symm⟩

/-- An entity record is made when all checks pass. -/
theorem ofTerms_fact {f : FactSchema} {props : FieldMap} {id : String}
    (prob : checkProbability o.prob = .ok ()) (metadata : o.metadata.check = .ok ())
    (given : terms.factProps f = .ok props) (checked : checkFactProps f props = .ok ())
    (computed : factEntityId f props = .ok id) :
    ofTerms (.fact f) terms o =
      .ok (identified ⟨f.id, .entity id, props, o.prob, o.metadata, none⟩ f.mergePolicy) := by
  rw [ofTerms, prob, ok_bind, metadata, ok_bind, given, ok_bind, ofFact, checked, ok_bind, computed]
  rfl

/-- A relation record is made when all checks pass. -/
theorem ofTerms_rel {rel : RelSchema} {c : RelationContent} {sub obj : String}
    (prob : checkProbability o.prob = .ok ())
    (metadata : o.metadata.check = .ok ()) (given : terms.relationContent rel o.mode = .ok c)
    (checked : checkRelProps rel c.props = .ok ())
    (subject : endpointEntityId rel .sub c.sub = .ok sub)
    (object : endpointEntityId rel .obj c.obj = .ok obj) :
    ofTerms (.rel rel) terms o =
      .ok (identified ⟨rel.id, .relation sub obj (some ⟨c.sub, c.obj⟩), c.props, o.prob, o.metadata,
        none⟩ rel.mergePolicy) := by
  rw [ofTerms, prob, ok_bind, metadata, ok_bind, given, ok_bind, ofRelation, checked, ok_bind,
    subject, ok_bind, object]
  rfl

/-- What the checks of terms have established of their record. -/
theorem describes_of_ofTerms {s : Schema} (h : ofTerms s terms o = .ok r) :
    checkProbability o.prob = .ok () ∧ o.metadata.check = .ok () ∧
      ∃ i props, s.Describes i props ∧ (s.kind = .rel → i.keys? ≠ none) ∧
        r = identified ⟨s.id, i, props, o.prob, o.metadata, none⟩ s.mergePolicy := by
  obtain ⟨_, prob, rest⟩ := bind_eq_ok.1 h
  obtain ⟨_, metadata, -⟩ := bind_eq_ok.1 rest
  refine ⟨prob, metadata, ?_⟩
  cases s with
  | fact f =>
    obtain ⟨props, id, -, checked, computed, made⟩ := ofTerms_fact_eq_ok h
    exact ⟨_, props, .fact checked computed, nofun, made⟩
  | rel rel =>
    obtain ⟨content, sub, obj, -, checked, subComputed, objComputed, made⟩ := ofTerms_rel_eq_ok h
    have computed : ∀ k ∈ some (EndpointKeys.mk content.sub content.obj),
        endpointEntityId rel .sub k.sub = .ok sub ∧ endpointEntityId rel .obj k.obj = .ok obj := by
      intro k hk
      cases hk
      exact ⟨subComputed, objComputed⟩
    exact ⟨_, content.props, .rel checked computed, fun _ => nofun, made⟩

theorem conforms_of_ofTerms {s : Schema} (ordered : o.metadata.IsOrdered)
    (h : ofTerms s terms o = .ok r) : r.schemaId = s.id ∧ r.Conforms s := by
  obtain ⟨prob, metadata, i, props, content, -, rfl⟩ := describes_of_ofTerms h
  exact ⟨schemaId_identified .., conforms_identified rfl prob metadata ordered content rfl⟩

end Terms

/-! ### Records of payloads -/

theorem verify_eq_ok {schemaId declared computed : String} {field : IdentityField}
    (h : verify schemaId field declared computed = .ok ()) : declared = computed := by
  unfold verify at h
  split at h
  case isTrue eq => exact eq
  case isFalse => cases h

theorem describes_of_entityOfPayload {f : FactSchema} {p : RecordPayload} {i : Identity}
    (h : entityOfPayload f p = .ok i) : Schema.Describes (.fact f) i p.props := by
  obtain ⟨_, checked, h⟩ := bind_eq_ok.1 h
  obtain ⟨id, computed, h⟩ := bind_eq_ok.1 h
  obtain ⟨declaredId, -, h⟩ := bind_eq_ok.1 h
  obtain ⟨_, -, h⟩ := bind_eq_ok.1 h
  cases h
  exact .fact checked computed

theorem describes_of_relationOfPayload {r : RelSchema} {p : RecordPayload} {i : Identity}
    (h : relationOfPayload r p = .ok i) : Schema.Describes (.rel r) i p.props := by
  obtain ⟨_, checked, h⟩ := bind_eq_ok.1 h
  obtain ⟨sub, -, h⟩ := bind_eq_ok.1 h
  obtain ⟨obj, -, h⟩ := bind_eq_ok.1 h
  -- without the key values of both sides nothing is recomputed
  cases known : p.endpointKeys? with
  | none =>
    rw [known] at h
    cases h
    exact .rel checked nofun
  | some keys =>
    rw [known] at h
    obtain ⟨computedSub, subComputed, h⟩ := bind_eq_ok.1 h
    obtain ⟨computedObj, objComputed, h⟩ := bind_eq_ok.1 h
    obtain ⟨_, subSame, h⟩ := bind_eq_ok.1 h
    obtain ⟨_, objSame, h⟩ := bind_eq_ok.1 h
    cases h
    refine .rel checked fun k hk => ?_
    cases hk
    exact ⟨verify_eq_ok subSame ▸ subComputed, verify_eq_ok objSame ▸ objComputed⟩

/-- What a stored record is about. -/
def identityOfPayload (p : RecordPayload) : Schema → Except SchemaError Identity
  | .fact f => entityOfPayload f p
  | .rel r => relationOfPayload r p

/-- The record of a payload, once its schema is found. -/
def restore (s : Schema) (p : RecordPayload) : Except SchemaError Record := do
  checkProbability p.prob
  let m ← Metadata.ofMembers p.metadata.entries
  let identity ← identityOfPayload p s
  let record := identified ⟨p.schemaId, identity, p.props, p.prob, m, none⟩ s.mergePolicy
  checkRecordId record p.recordId
  return record

section Restore

variable {p : RecordPayload} {source : Source} {s : Schema} (found : source p.schemaId = .ok s)

include found

theorem ofPayload_eq_restore (kinds : ∀ k ∈ p.kind, k = s.kind) :
    ofPayload p source = restore s p := by
  unfold ofPayload
  rw [found, ok_bind]
  cases h : p.kind with
  | none => cases s <;> rfl
  | some k =>
    have same : ¬ k ≠ s.kind := not_not_intro (kinds k h)
    simp only [if_neg same]
    cases s <;> rfl

theorem kind_of_ofPayload {r : Record} (h : ofPayload p source = .ok r) :
    ∀ k ∈ p.kind, k = s.kind := by
  intro k hk
  by_contra different
  unfold ofPayload at h
  rw [found, ok_bind, Option.mem_def.1 hk] at h
  simp only [ne_eq, different, not_false_iff, if_true] at h
  cases h

/-- What the checks of a payload have established of its record. -/
theorem describes_of_found {r : Record} (h : ofPayload p source = .ok r) :
    checkProbability p.prob = .ok () ∧ ∃ m i, Metadata.ofMembers p.metadata.entries = .ok m ∧
      s.Describes i p.props ∧
        r = identified ⟨p.schemaId, i, p.props, p.prob, m, none⟩ s.mergePolicy := by
  rw [ofPayload_eq_restore found (kind_of_ofPayload found h)] at h
  obtain ⟨_, prob, h⟩ := bind_eq_ok.1 h
  obtain ⟨m, read, h⟩ := bind_eq_ok.1 h
  obtain ⟨identity, made, h⟩ := bind_eq_ok.1 h
  obtain ⟨_, -, h⟩ := bind_eq_ok.1 h
  have content : s.Describes identity p.props := by
    cases s with
    | fact f => exact describes_of_entityOfPayload made
    | rel r => exact describes_of_relationOfPayload made
  exact ⟨prob, m, identity, read, content, (Except.ok.inj h).symm⟩

theorem conforms_of_found {r : Record} (h : ofPayload p source = .ok r) :
    r.schemaId = p.schemaId ∧ r.Conforms s := by
  obtain ⟨prob, m, i, read, content, rfl⟩ := describes_of_found found h
  exact ⟨schemaId_identified .., conforms_identified rfl prob
    (Metadata.check_of_ofMembers read) (Metadata.isOrdered_of_ofMembers read) content rfl⟩

end Restore

theorem conforms_of_ofPayload {p : RecordPayload} {source : Source} {r : Record}
    (h : ofPayload p source = .ok r) : ∃ s, source r.schemaId = .ok s ∧ r.Conforms s := by
  obtain ⟨s, found, -⟩ := bind_eq_ok.1 h
  obtain ⟨id, conforms⟩ := conforms_of_found found h
  exact ⟨s, id ▸ found, conforms⟩

/-! ### All records -/

/-- The records that there are over the schemas of a source. What is known about a record apart
from its content is JSON where it is free. -/
inductive Accepted (source : Source) : Record → Prop
  | terms {s terms o r} (known : source s.id = .ok s) (ordered : o.metadata.IsOrdered)
      (h : ofTerms s terms o = .ok r) : Accepted source r
  | stored {p r} (h : ofPayload p source = .ok r) : Accepted source r

theorem Accepted.conforms {source : Source} {r : Record} (h : r.Accepted source) :
    ∃ s, source r.schemaId = .ok s ∧ r.Conforms s := by
  cases h with
  | terms known ordered h =>
    obtain ⟨id, conforms⟩ := conforms_of_ofTerms ordered h
    exact ⟨_, id ▸ known, conforms⟩
  | stored h => exact conforms_of_ofPayload h

end Record

end Clausal
