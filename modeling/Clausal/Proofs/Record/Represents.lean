import Clausal.Proofs.Record.Joining
import Clausal.Proofs.Record.Verified
import Clausal.Proofs.Schema.Sides

/-!
# What a record represents

Main statement: `represents`. However a record comes about, from terms of any shape or from a payload,
its values fit the arguments that they are for, and its identifiers are those of the values that it
holds. The checks are shown to say just that of the values (`checkFactProps_eq_ok_iff`,
`checkRelProps_eq_ok_iff`), so that both ways only have to run them.
-/

namespace Clausal

/-! ### Values of arguments -/

/-- Each value is for an argument of the signature and fits its datatype. -/
def FieldMap.Fits (values : FieldMap) (s : Signature) : Prop :=
  ∀ k v, values.get? k = some v → ∃ a ∈ s.args, a.name = k ∧ v.fits a.datatype = true

namespace FieldMap

variable {values : FieldMap} {s : Signature}

/-- Checks look up the argument for a value by its name. -/
theorem fits_iff : values.Fits s ↔ (∀ k, values.contains k = true → k ∈ s.names) ∧
    ∀ k v, values.get? k = some v → ∀ a ∈ s.find? k, v.fits a.datatype = true := by
  constructor
  · intro h
    constructor
    · intro k held
      obtain ⟨v, found⟩ := Option.isSome_iff_exists.1 held
      obtain ⟨a, mem, rfl, -⟩ := h k v found
      exact List.mem_map_of_mem mem
    · intro k v found a ha
      obtain ⟨b, mem, name, fits⟩ := h k v found
      cases (Signature.find?_eq_some_iff.2 ⟨mem, name⟩).symm.trans ha
      exact fits
  · rintro ⟨known, fits⟩ k v found
    have held : values.contains k = true := by rw [SortedMap.contains, found]; rfl
    obtain ⟨a, ha⟩ := Option.isSome_iff_exists.1 (Signature.isSome_find?_iff.2 (known k held))
    obtain ⟨mem, name⟩ := Signature.find?_eq_some_iff.1 ha
    exact ⟨a, mem, name, fits k v found a ha⟩

theorem Fits.of_mem {a : Arg} {v : Value} (fits : values.Fits s) (mem : a ∈ s.args)
    (found : values.get? a.name = some v) : v.fits a.datatype = true :=
  (fits_iff.1 fits).2 a.name v found a (Signature.find?_eq_some_iff.2 ⟨mem, rfl⟩)

theorem checkValues_entries {predicate : String} :
    Record.checkValues predicate s.find? values.entries = .ok () ↔
      ∀ k v, values.get? k = some v → ∀ a ∈ s.find? k, v.fits a.datatype = true := by
  rw [Record.checkValues_eq_ok_iff]
  simp only [Prod.forall, SortedMap.get?_eq_some_iff]

theorem unknown_eq_nil :
    values.keys.filter (fun k => (s.find? k).isNone) = [] ↔
      ∀ k, values.contains k = true → k ∈ s.names := by
  simp only [List.filter_eq_nil_iff, SortedMap.mem_keys_iff, ← Signature.isSome_find?_iff,
    Bool.not_eq_true, Option.isNone_eq_false_iff]

end FieldMap

namespace Record

/-- The props of an entity record pass their checks exactly when they fit the arguments. -/
theorem checkFactProps_eq_ok_iff {f : FactSchema} {props : FieldMap} :
    checkFactProps f props = .ok () ↔ props.Fits f.signature := by
  rw [FieldMap.fits_iff, ← FieldMap.unknown_eq_nil, ← FieldMap.checkValues_entries]
  unfold checkFactProps
  dsimp only
  split
  case isTrue some => exact iff_of_false nofun fun h => some h.1
  case isFalse none => exact (and_iff_right (not_not.1 none)).symm

/-- The props of a relation record pass their checks exactly when they are those that are declared and
fit their datatypes. -/
theorem checkRelProps_eq_ok_iff {rel : RelSchema} {props : FieldMap} :
    checkRelProps rel props = .ok () ↔
      (∀ k, props.contains k = true ↔ k ∈ rel.props.names) ∧ props.Fits rel.props := by
  have complete : rel.props.names.filter (fun k => !props.contains k) = [] ↔
      ∀ k ∈ rel.props.names, props.contains k = true := by
    simp only [List.filter_eq_nil_iff, Bool.not_eq_true', Bool.not_eq_false]
  rw [FieldMap.fits_iff, ← FieldMap.checkValues_entries]
  unfold checkRelProps
  dsimp only
  split
  case isTrue some => exact iff_of_false nofun fun h => some (FieldMap.unknown_eq_nil.2 h.2.1)
  case isFalse known =>
    have known := FieldMap.unknown_eq_nil.1 (not_not.1 known)
    split
    case isTrue some => exact iff_of_false nofun fun h => some (complete.2 fun k => (h.1 k).2)
    case isFalse none =>
      have complete := complete.1 (not_not.1 none)
      exact ⟨fun h => ⟨fun k => ⟨known k, complete k⟩, known, h⟩, fun h => h.2.2⟩

end Record

/-! ### What checked content holds -/

/-- Key values at a side of a relation and the identifier of the entity there: exactly the key fields
have values, these fit, and the identifier is theirs. -/
structure RelSchema.HasKey (rel : RelSchema) (side : Side) (keys : FieldMap) (id : String) : Prop where
  exact : ∀ k, keys.contains k = true ↔ k ∈ rel.keyFieldsOf side
  fits : keys.Fits (rel.endpoint side).signature
  identifies : Record.Identifies (rel.endpoint side).id (rel.keyFieldsOf side) keys id

theorem RelSchema.hasKey_of_endpointEntityId {rel : RelSchema} {side : Side} {keys : FieldMap}
    {id : String} (h : Record.endpointEntityId rel side keys = .ok id) : rel.HasKey side keys id := by
  obtain ⟨isKey, -⟩ := Record.endpointEntityId_eq_ok_iff.1 h
  have declared (k) (held : keys.contains k = true) : k ∈ (rel.endpoint side).signature.names :=
    rel.keyFieldsOf_subset side ((isKey.fields k).1 held)
  exact ⟨isKey.fields, FieldMap.fits_iff.2 ⟨declared, isKey.fits⟩,
    Record.identifies_of_endpointEntityId h⟩

/-- What records of a schema are about, and their props. -/
inductive Schema.Content : Schema → Identity → FieldMap → Prop
  /-- The props fit the arguments, and the identifier is that of the key fields. -/
  | entity {f id props} (fits : props.Fits f.signature)
      (identifies : Record.Identifies f.id f.keyFields props id) :
      Content (.fact f) (.entity id) props
  /-- The props are those that are declared, and the identifiers are those of the key values, when
  these are known. -/
  | relation {rel sub obj keys props} (exact : ∀ k, props.contains k = true ↔ k ∈ rel.props.names)
      (fits : props.Fits rel.props)
      (known : ∀ k ∈ keys, rel.HasKey .sub k.sub sub ∧ rel.HasKey .obj k.obj obj) :
      Content (.rel rel) (.relation sub obj keys) props

theorem Schema.Describes.content {s : Schema} {i : Identity} {props : FieldMap}
    (h : s.Describes i props) : s.Content i props := by
  cases h with
  | fact checked computed =>
    exact .entity (Record.checkFactProps_eq_ok_iff.1 checked)
      (Record.identifies_of_factEntityId computed)
  | rel checked computed =>
    obtain ⟨exact, fits⟩ := Record.checkRelProps_eq_ok_iff.1 checked
    refine .relation exact fits fun k hk => ?_
    obtain ⟨sub, obj⟩ := computed k hk
    exact ⟨RelSchema.hasKey_of_endpointEntityId sub, RelSchema.hasKey_of_endpointEntityId obj⟩

theorem Record.Over.content {s : Schema} {r : Record} (h : Over s r) :
    s.Content r.identity r.props := by
  obtain ⟨-, -, describes, -⟩ := h.parts
  exact describes.content

theorem Record.content_of_ofTerms {s : Schema} {terms : Terms} {o : RecordOptions} {r : Record}
    (made : Record.ofTerms s terms o = .ok r) :
    s.id = r.schemaId ∧ s.Content r.identity r.props ∧
      (s.kind = .rel → r.identity.keys? ≠ none) := by
  obtain ⟨-, -, i, props, content, known, rfl⟩ := describes_of_ofTerms made
  rw [schemaId_identified, identity_identified, props_identified]
  exact ⟨rfl, content.content, known⟩

/-! ### Records -/

/-- A record represents something that its schema allows for. -/
structure Record.Represents (r : Record) (s : Schema) : Prop where
  prob : ∀ p ∈ r.prob, p.IsProbability
  confidence : ∀ c ∈ r.metadata.confidence, c.IsProbability
  content : s.Content r.identity r.props
  recordId : r.recordId = if s.mergePolicy = .keepAll then
      some (Identifier.record r.schemaId r.identity.entities (Record.evidenceId r.props r.metadata))
    else none

namespace Record

theorem represents_identified {r : Record} {s : Schema} (prob : checkProbability r.prob = .ok ())
    (metadata : r.metadata.check = .ok ()) (content : s.Describes r.identity r.props)
    (new : r.recordId = none) : (r.identified s.mergePolicy).Represents s := by
  have prob := isProbability_of_checkProbability prob
  have confidence := Metadata.isProbability_of_check metadata
  unfold identified
  split
  case isTrue all => exact ⟨prob, confidence, content.content, (if_pos all).symm⟩
  case isFalse not => exact ⟨prob, confidence, content.content, new.trans (if_neg not).symm⟩

/-- **What records represent.** A record that is made of terms, and one that is loaded, has
probabilities from zero to one, values that fit the arguments of its schema, the identifiers that
belong to its key values and one of its own if its schema keeps all records. The key values of a
relation that is made of terms are known. -/
theorem represents (s : Schema) :
    (∀ (terms : Terms) (o : RecordOptions) (r : Record), ofTerms s terms o = .ok r →
      r.schemaId = s.id ∧ r.Represents s ∧ (s.kind = .rel → r.identity.keys? ≠ none)) ∧
    ∀ (p : RecordPayload) (source : Source) (r : Record), source p.schemaId = .ok s →
      ofPayload p source = .ok r → r.schemaId = p.schemaId ∧ r.Represents s := by
  constructor
  · intro terms o r made
    obtain ⟨prob, metadata, i, props, content, known, rfl⟩ := describes_of_ofTerms made
    rw [identity_identified]
    exact ⟨schemaId_identified .., represents_identified prob metadata content rfl, known⟩
  · intro p source r found loaded
    obtain ⟨prob, m, i, read, content, rfl⟩ := describes_of_found found loaded
    exact ⟨schemaId_identified ..,
      represents_identified prob (Metadata.check_of_ofMembers read) content rfl⟩

theorem represents_acquaintance :
    acquaintance.Represents (.rel .knows) ∧ acquaintance.identity.keys? ≠ none ∧
      (acquaintance.keeping false).Represents (.rel .knows) := by
  obtain ⟨made, loaded⟩ := represents (.rel .knows)
  obtain ⟨-, represented, known⟩ := made _ _ _ ofTerms_acquaintance
  have conforms : (acquaintance.keeping false).Conforms (.rel .knows) := by
    obtain ⟨s, found, conforms⟩ := accepted_acquaintance.conforms
    cases found
    exact conforms.keeping false
  let source : Source := fun _ => .ok (.rel .knows)
  have again : ofPayload (acquaintance.keeping false).fullPayload source =
      .ok (acquaintance.keeping false) := ofPayload_fullPayload conforms rfl
  exact ⟨represented, known rfl, (loaded _ source _ rfl again).2⟩

end Record

end Clausal
