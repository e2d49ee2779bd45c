import Clausal.Proofs.Library.Predicate
import Clausal.Proofs.Record.Represents
import Clausal.Proofs.Schema.Spelled
import Mathlib.Data.Nat.Digits.Defs

/-!
# What identifiers of records tell apart

Main statement: `text_separates`. The text behind the identifier of a record is made of the schema,
the identifiers of the entities and the evidence, with nothing between them. Identifiers that are
computed have one length, so that the text says where each of them ends; those that a relation
record brings with it need not (`text_not_separates`). The evidence is a free text or the digest of
the content of the record, and one can be given that looks like the other.
-/

namespace Clausal

open Json

/-! ### Lengths of digests -/

namespace Sha256

theorem length_wordHex (w : UInt32) : (wordHex w).length = 8 := by
  have short : (Nat.toDigits 16 w.toNat).length ≤ 8 :=
    Nat.toDigits_length 16 w.toNat 8 (by decide) w.toNat_lt
  rw [wordHex, List.length_append, List.length_replicate, Nat.sub_add_cancel short]

theorem length_hex (message : List UInt8) : (hex message).length = 64 := by
  rw [hex, String.length_ofList, List.length_flatMap]
  simp [length_wordHex]

/-- No digit of base 16 is a blank. By induction on the number, since its last digit comes last. -/
theorem isBlank_of_mem_toDigits {n : ℕ} {c : Char} (h : c ∈ Nat.toDigits 16 n) :
    Text.isBlank c = false := by
  have digit : ∀ d < 16, Text.isBlank d.digitChar = false := by decide
  induction n using Nat.strongRecOn with
  | ind n ih =>
    by_cases small : n < 16
    · rw [Nat.toDigits_of_lt_base small, List.mem_singleton] at h
      rw [h]
      exact digit n small
    · rw [Nat.toDigits_of_base_le (by omega) (by omega), List.mem_append, List.mem_singleton] at h
      rcases h with front | rfl
      · exact ih (n / 16) (by omega) front
      · exact digit (n % 16) (by omega)

theorem isBlank_of_mem_hex {message : List UInt8} {c : Char} (h : c ∈ (hex message).toList) :
    Text.isBlank c = false := by
  rw [hex, String.toList_ofList, List.mem_flatMap] at h
  obtain ⟨w, -, mem⟩ := h
  rw [wordHex, List.mem_append, List.mem_replicate] at mem
  rcases mem with ⟨-, rfl⟩ | mem
  · decide
  · exact isBlank_of_mem_toDigits mem

end Sha256

namespace Identifier

theorem length_ofText (s : String) : (ofText s).length = 64 := Sha256.length_hex _

theorem trim_ofText (s : String) : Text.trim (ofText s) = ofText s :=
  Text.trim_of_forall fun _ => Sha256.isBlank_of_mem_hex

theorem ofText_ne_empty (s : String) : ofText s ≠ "" := by
  intro empty
  have length := length_ofText s
  rw [empty] at length
  cases length

theorem ofText_eq_iff {s t : String} : ofText s = ofText t ↔ s = t ∨ Collide s t := by
  constructor
  · intro same
    by_cases texts : s = t
    · exact .inl texts
    · exact .inr ⟨texts, same⟩
  · rintro (texts | ⟨-, same⟩)
    · exact congrArg _ texts
    · exact same

/-- Where one part of a text ends is known when the parts in front have the same lengths. -/
theorem append_eq_append_iff {s s' t t' : String} (length : s.length = s'.length) :
    s ++ t = s' ++ t' ↔ s = s' ∧ t = t' := by
  rw [← String.length_toList, ← String.length_toList] at length
  simp only [← String.toList_inj, String.toList_append]
  exact ⟨fun same => List.append_inj same length, fun ⟨front, back⟩ => by rw [front, back]⟩

theorem join_append_eq_iff {ids ids' : List String} {e e' : String}
    (lengths : ids.map String.length = ids'.map String.length) :
    String.join ids ++ e = String.join ids' ++ e' ↔ ids = ids' ∧ e = e' := by
  induction ids generalizing ids' with
  | nil =>
    cases ids' with
    | nil => simp
    | cons => cases lengths
  | cons id rest ih =>
    cases ids' with
    | nil => cases lengths
    | cons id' rest' =>
      obtain ⟨first, others⟩ := List.cons.inj lengths
      rw [String.join_cons, String.join_cons, String.append_assoc, String.append_assoc,
        append_eq_append_iff first, ih others, List.cons.injEq, and_assoc]

/-- The entities and the evidence are known from the text if the lengths of the identifiers are. -/
theorem recordText_eq_iff {schemaId : String} {ids ids' : List String} {e e' : String}
    (lengths : ids.map String.length = ids'.map String.length) :
    recordText schemaId ids e = recordText schemaId ids' e' ↔ ids = ids' ∧ e = e' := by
  rw [recordText, recordText, String.append_assoc, String.append_assoc, String.append_right_inj,
    join_append_eq_iff lengths]

end Identifier

/-! ### Field values as JSON -/

namespace FieldMap

theorem sorted_toJson (m : FieldMap) : m.toJson.sorted = m.toJson := by
  have increasing : ((m.mapValues Value.toJson).entries.map (·.1)).Pairwise
      fun a b => compare a b = .lt := List.pairwise_map.2 (m.mapValues Value.toJson).increasing
  refine sorted_obj_eq_of_increasing _ increasing rfl (List.Perm.of_eq ?_)
  simp only [SortedMap.mapValues, List.map_map, Function.comp_def, Value.sorted_toJson]

theorem hasNumbers_toJson (m : FieldMap) : m.toJson.HasNumbers Number.IsRepresentable :=
  haveNumbersInValues_iff.2 fun _ h => by
    obtain ⟨e, -, rfl⟩ := List.mem_map.1 h
    exact e.2.hasNumbers_toJson

theorem toJson_injective {m m' : FieldMap} (hm : m.IsFinite) (hm' : m'.IsFinite)
    (h : m.toJson = m'.toJson) : m = m' := by
  have read := (decode_reads hm).ofJson
  rw [h, (decode_reads hm').ofJson] at read
  exact (Except.ok.inj read).symm

end FieldMap

/-! ### Evidence -/

/-- The evidence that metadata names. -/
def Metadata.named? (m : Metadata) : Option String := m.evidenceId.filter (· ≠ "")

namespace Record

variable {r r' : Record}

/-- The text behind the digest that counts as evidence when none is named. -/
def contentText (r : Record) : String := (evidence r.props r.metadata).canonical

/-- The text behind the identifier of a record. -/
def text (r : Record) : String :=
  Identifier.recordText r.schemaId r.identity.entities (evidenceId r.props r.metadata)

/-- Two records say the same and are from the same source at the same times. -/
structure SameContent (r r' : Record) : Prop where
  props : r.props = r'.props
  source : r.metadata.source = r'.metadata.source
  observedAt : r.metadata.observedAt = r'.metadata.observedAt
  ingestedAt : r.metadata.ingestedAt = r'.metadata.ingestedAt

/-- Two records have the same evidence. Evidence that is named counts before the content, and counts
as the content of another record if it is the digest of that. -/
def SameEvidence (r r' : Record) : Prop :=
  match r.metadata.named?, r'.metadata.named? with
  | some id, some id' => id = id'
  | some id, none => id = Identifier.ofText r'.contentText
  | none, some id' => Identifier.ofText r.contentText = id'
  | none, none => SameContent r r' ∨ Identifier.Collide r.contentText r'.contentText

theorem evidenceId_eq (r : Record) : evidenceId r.props r.metadata =
    r.metadata.named?.getD (Identifier.ofText r.contentText) := by
  unfold evidenceId Metadata.named?
  cases r.metadata.evidenceId with
  | none => rfl
  | some id =>
    rw [Option.filter_some]
    by_cases empty : id = ""
    · simp [empty, contentText, Identifier.ofJson]
    · simp [empty]

theorem hasNumbers_evidence (props : FieldMap) (m : Metadata) :
    (evidence props m).HasNumbers Number.IsRepresentable :=
  ⟨props.hasNumbers_toJson, hasNumbers_ofString? _, hasNumbers_ofString? _, hasNumbers_ofString? _,
    trivial⟩

theorem contentText_eq_iff (finite : r.props.IsFinite) (finite' : r'.props.IsFinite) :
    r.contentText = r'.contentText ↔ SameContent r r' := by
  rw [contentText, contentText,
    canonical_eq_iff_sorted_eq (hasNumbers_evidence _ _) (hasNumbers_evidence _ _)]
  constructor
  · intro h
    have distinct : (["props", "source", "observed_at", "ingested_at"] : List String).Nodup := by
      decide
    have props := sorted_value_eq_at h distinct 0 rfl rfl
    have source := sorted_value_eq_at h distinct 1 rfl rfl
    have observedAt := sorted_value_eq_at h distinct 2 rfl rfl
    have ingestedAt := sorted_value_eq_at h distinct 3 rfl rfl
    rw [FieldMap.sorted_toJson, FieldMap.sorted_toJson] at props
    exact ⟨FieldMap.toJson_injective finite finite' props, sorted_ofString?_injective source,
      sorted_ofString?_injective observedAt, sorted_ofString?_injective ingestedAt⟩
  · rintro ⟨props, source, observedAt, ingestedAt⟩
    rw [evidence, evidence, props, source, observedAt, ingestedAt]

theorem evidenceId_eq_iff (finite : r.metadata.named? = none → r'.metadata.named? = none →
      r.props.IsFinite ∧ r'.props.IsFinite) :
    evidenceId r.props r.metadata = evidenceId r'.props r'.metadata ↔ SameEvidence r r' := by
  rw [evidenceId_eq, evidenceId_eq, SameEvidence]
  cases name : r.metadata.named? with
  | some id => cases r'.metadata.named? <;> exact Iff.rfl
  | none =>
    cases name' : r'.metadata.named? with
    | some id' => exact Iff.rfl
    | none =>
      obtain ⟨finite, finite'⟩ := finite name name'
      rw [← contentText_eq_iff finite finite']
      exact Identifier.ofText_eq_iff

/-! ### Identifiers of records -/

/-- Identifiers that are computed have one length. -/
theorem Over.length_entities {s : Schema} (accepted : Over s r)
    (known : s.kind = .rel → r.identity.keys? ≠ none) :
    r.identity.entities.map String.length = if s.kind = .fact then [64] else [64, 64] := by
  have content := accepted.content
  generalize r.identity = i at content known
  cases content with
  | entity fits identifies =>
    rw [Identity.entities, List.map_singleton, identifies.id_eq, Identifier.length_ofText]
    rfl
  | relation exact fits computed =>
    obtain ⟨keys, rfl⟩ := Option.ne_none_iff_exists'.1 (known rfl)
    obtain ⟨sub, obj⟩ := computed keys rfl
    rw [Identity.entities, List.map_cons, List.map_singleton, sub.identifies.id_eq,
      obj.identifies.id_eq, Identifier.length_ofText, Identifier.length_ofText]
    rfl

theorem Over.recordId_eq {s : Schema} (accepted : Over s r) (all : s.mergePolicy = .keepAll) :
    r.recordId = some (Identifier.ofText r.text) := by
  obtain ⟨-, -, -, own⟩ := accepted.parts
  rw [own, identified, if_pos all]
  rfl

/-- **Texts behind identifiers separate records.** The identifier of a record, where the predicate
keeps all records, is the digest of its text. Two records of one predicate have one text exactly
when they are about the same entities and have the same evidence, provided that the identifiers of
their entities have the same lengths. They have the same lengths where they are computed: in entity
records, and in relation records with known key values. -/
theorem text_separates (s : Schema) :
    (∀ r, Over s r → s.mergePolicy = .keepAll → r.recordId = some (Identifier.ofText r.text)) ∧
    (∀ r r', Over s r → Over s r' → (s.kind = .rel → r.identity.keys? ≠ none) →
      (s.kind = .rel → r'.identity.keys? ≠ none) →
      r.identity.entities.map String.length = r'.identity.entities.map String.length) ∧
    ∀ r r' : Record, r.schemaId = r'.schemaId →
      r.identity.entities.map String.length = r'.identity.entities.map String.length →
      (r.metadata.named? = none → r'.metadata.named? = none →
        r.props.IsFinite ∧ r'.props.IsFinite) →
      (r.text = r'.text ↔ r.identity.entities = r'.identity.entities ∧ SameEvidence r r') := by
  refine ⟨fun r accepted all => accepted.recordId_eq all,
    fun r r' accepted accepted' known known' => ?_,
    fun r r' schemas lengths finite => ?_⟩
  · rw [accepted.length_entities known, accepted'.length_entities known']
  · rw [text, text, schemas, Identifier.recordText_eq_iff lengths, evidenceId_eq_iff finite]

/-- What is said on some evidence. -/
def onEvidence (id : String) : RecordOptions :=
  { RecordOptions.default with metadata := { Metadata.empty with evidenceId := some id } }

theorem named?_onEvidence {id : String} (ne : id ≠ "") :
    (onEvidence id).metadata.named? = some id := by
  rw [onEvidence, Metadata.named?, Option.filter_some, if_pos (by simpa using ne)]

/-- Since when number 1 knows number 2. -/
def knownSince (year : Int64) : Terms :=
  .relation (.keys (personKeys 1)) (.keys (personKeys 2)) (.positional [.int year])

/-- What one letter says of two years has one text. -/
theorem text_separates_letter :
    ∃ r r', ofTerms (.rel .knows) (knownSince 1999) (onEvidence "letter") = .ok r ∧
      ofTerms (.rel .knows) (knownSince 2000) (onEvidence "letter") = .ok r' ∧
      r.recordId = some (Identifier.ofText r.text) ∧ r.text = r'.text := by
  obtain ⟨own, computed, separates⟩ := text_separates (.rel .knows)
  obtain ⟨r, made⟩ :
      ∃ r, ofTerms (.rel .knows) (knownSince 1999) (onEvidence "letter") = .ok r := ⟨_, rfl⟩
  obtain ⟨r', made'⟩ :
      ∃ r, ofTerms (.rel .knows) (knownSince 2000) (onEvidence "letter") = .ok r := ⟨_, rfl⟩
  obtain ⟨schema, -, known⟩ := content_of_ofTerms made
  obtain ⟨schema', -, known'⟩ := content_of_ofTerms made'
  have name : r.metadata.named? = some "letter" := by
    cases made
    exact named?_onEvidence (by decide)
  have name' : r'.metadata.named? = some "letter" := by
    cases made'
    exact named?_onEvidence (by decide)
  have lengths := computed r r' (.terms made) (.terms made') known known'
  have separates := separates r r' (schema.symm.trans schema') lengths fun none =>
    absurd (name.symm.trans none) (Option.some_ne_none _)
  refine ⟨r, r', made, made', own r (.terms made) rfl, separates.2 ⟨?_, ?_⟩⟩
  · cases made
    cases made'
    rfl
  · rw [SameEvidence, name, name']

end Record

/-! ### Texts that do not separate -/

/-- A stored record of someone who knows someone else since 1999, both by their identifiers only. -/
def RecordPayload.unkeyed (sub obj : String) : RecordPayload :=
  { Record.forged with subEntityId := some sub, objEntityId := some obj, subKey := none }

namespace Record

/-- Identifiers of other lengths can be put together to the same text, and the digest of the content
of a record can be named as evidence. -/
theorem text_not_separates :
    (∃ r r', Over (.rel .knows) r ∧ Over (.rel .knows) r' ∧ r.text = r'.text ∧
      r.identity.entities = ["ab", "c"] ∧ r'.identity.entities = ["a", "bc"]) ∧
    ∃ r r', Over (.rel .knows) r ∧ Over (.rel .knows) r' ∧ r.text = r'.text ∧
      r.metadata.named? = none ∧ r'.metadata.named? = some (Identifier.ofText r.contentText) := by
  constructor
  · -- the identifiers of the endpoints are put together without anything between them
    have joined : String.join ["ab", "c"] = String.join ["a", "bc"] := by decide
    obtain ⟨r, made⟩ : ∃ r, ofPayload (.unkeyed "ab" "c") (fun _ => .ok (.rel .knows)) = .ok r :=
      ⟨_, rfl⟩
    obtain ⟨r', made'⟩ : ∃ r, ofPayload (.unkeyed "a" "bc") (fun _ => .ok (.rel .knows)) = .ok r :=
      ⟨_, rfl⟩
    refine ⟨r, r', .stored rfl made, .stored rfl made', ?_⟩
    cases made
    cases made'
    exact ⟨congrArg (RelSchema.knows.id ++ · ++ _) joined, rfl, rfl⟩
  · -- an evidence identifier can be named that is the one that would be computed
    have digest := Identifier.ofText_ne_empty acquaintance.contentText
    obtain ⟨r, made⟩ : ∃ r, ofTerms (.rel .knows) (knownSince 1999)
        (onEvidence (Identifier.ofText acquaintance.contentText)) = .ok r := ⟨_, rfl⟩
    refine ⟨acquaintance, r, .terms ofTerms_acquaintance, .terms made, ?_⟩
    have none : acquaintance.metadata.named? = none := rfl
    have name : r.metadata.named? = some (Identifier.ofText acquaintance.contentText) := by
      cases made
      exact named?_onEvidence digest
    have about : r.schemaId = acquaintance.schemaId ∧
        r.identity.entities = acquaintance.identity.entities := by
      cases made
      exact ⟨rfl, rfl⟩
    refine ⟨?_, none, name⟩
    rw [text, text, evidenceId_eq, evidenceId_eq, none, name, about.1, about.2, Option.getD_none,
      Option.getD_some]

end Record

end Clausal
