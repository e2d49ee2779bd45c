import Clausal.Proofs.Json.Canonical
import Clausal.Proofs.Record.Accepted
import Clausal.Proofs.Value

/-!
# Identifiers of entities follow key values

Main statement: `keyText_eq_iff_alike`. The texts behind the identifiers of two entities of one
schema are equal exactly when the values of all key fields are alike. Values are alike when they are
equal, and any two numbers that are not finite are: JSON has no spelling for them, so that they all
become null (`keyText_nan_eq_keyText_infinity`).
-/

namespace Clausal

open Json

/-! ### Values that JSON cannot tell apart -/

namespace Value

/-- Equal values, or numbers of which neither is finite. -/
def Alike (v w : Value) : Prop := v = w ∨ ¬ v.IsFinite ∧ ¬ w.IsFinite

theorem toJson_of_not_isFinite {v : Value} (h : ¬ v.IsFinite) : v.toJson = .null := by
  cases v with
  | bool _ | int _ | str _ => exact absurd trivial h
  | float x => exact if_neg h

theorem toJson_ne_null {v : Value} (h : v.IsFinite) : v.toJson ≠ .null := by
  cases v with
  | bool _ | int _ | str _ => exact nofun
  | float x => exact ofFloat_ne_null h

theorem toJson_injective {v w : Value} (hv : v.IsFinite) (hw : w.IsFinite)
    (h : v.toJson = w.toJson) : v = w := by
  have read := (decode_reads hv).ofJson
  rw [h, (decode_reads hw).ofJson] at read
  exact (Except.ok.inj read).symm

theorem toJson_eq_toJson_iff {v w : Value} : v.toJson = w.toJson ↔ v.Alike w := by
  constructor
  · intro h
    by_cases hv : v.IsFinite
    · by_cases hw : w.IsFinite
      · exact .inl (toJson_injective hv hw h)
      · exact absurd (h.trans (toJson_of_not_isFinite hw)) (toJson_ne_null hv)
    · by_cases hw : w.IsFinite
      · exact absurd (h.symm.trans (toJson_of_not_isFinite hv)) (toJson_ne_null hw)
      · exact .inr ⟨hv, hw⟩
  · rintro (rfl | ⟨hv, hw⟩)
    · rfl
    · rw [toJson_of_not_isFinite hv, toJson_of_not_isFinite hw]

theorem sorted_toJson (v : Value) : v.toJson.sorted = v.toJson := by
  cases v with
  | bool _ | int _ | str _ => rfl
  | float x =>
    rw [toJson, ofFloat]
    split <;> rfl

theorem hasNumbers_toJson (v : Value) : v.toJson.HasNumbers Number.IsRepresentable := by
  cases v with
  | bool _ | str _ => trivial
  | int i => exact ⟨i.minValue_le_toInt, Int.lt_of_le_of_lt i.toInt_le (by decide)⟩
  | float x =>
    rw [toJson, ofFloat]
    split
    case isTrue finite => exact finite
    case isFalse => trivial

end Value

/-- Two maps have values for a field, and these are alike. -/
def FieldMap.AlikeAt (m m' : FieldMap) (field : String) : Prop :=
  ∃ v ∈ m.get? field, ∃ w ∈ m'.get? field, v.Alike w

/-! ### Texts behind the identifiers of entities -/

namespace Identifier

theorem sorted_keyPairs (pairs : List (String × Value)) :
    (keyPairs pairs).sorted = keyPairs pairs := by
  rw [keyPairs, sorted, sortedItems_eq_map, List.map_map]
  refine congrArg arr (List.map_congr_left fun p _ => ?_)
  simp only [Function.comp_apply, sorted, sortedItems, Value.sorted_toJson]

theorem hasNumbers_keyPairs (pairs : List (String × Value)) :
    (keyPairs pairs).HasNumbers Number.IsRepresentable :=
  haveNumbers_iff.2 fun _ h => by
    obtain ⟨p, -, rfl⟩ := List.mem_map.1 h
    exact ⟨trivial, p.2.hasNumbers_toJson, trivial⟩

/-- The schema comes first in the text, and what follows says which pairs there are. -/
theorem entityText_eq_iff {schemaId : String} {pairs pairs' : List (String × Value)} :
    entityText schemaId pairs = entityText schemaId pairs' ↔ keyPairs pairs = keyPairs pairs' := by
  rw [entityText, entityText, String.append_right_inj,
    canonical_eq_iff_sorted_eq (hasNumbers_keyPairs _) (hasNumbers_keyPairs _), sorted_keyPairs,
    sorted_keyPairs]

theorem keyPairs_cons_eq_iff {p p' : String × Value} {pairs pairs' : List (String × Value)} :
    keyPairs (p :: pairs) = keyPairs (p' :: pairs') ↔
      (p.1 = p'.1 ∧ p.2.Alike p'.2) ∧ keyPairs pairs = keyPairs pairs' := by
  simp only [keyPairs, List.map_cons, arr.injEq, List.cons.injEq, str.injEq, and_true,
    Value.toJson_eq_toJson_iff]

end Identifier

namespace Record

/-- The text behind the identifier of an entity, from its schema and the values of its key
fields. -/
def keyText (schemaId : String) (keyFields : List String) (values : FieldMap) : String :=
  Identifier.entityText schemaId (pairsOf keyFields values)

theorem pairsOf_cons {field : String} {rest : List String} {values : FieldMap} {v : Value}
    (h : values.get? field = some v) :
    pairsOf (field :: rest) values = (field, v) :: pairsOf rest values := by
  rw [pairsOf, List.filterMap_cons, h]
  rfl

theorem keyPairs_pairsOf_eq_iff {fields : List String} {m m' : FieldMap}
    (complete : ∀ k ∈ fields, m.contains k = true)
    (complete' : ∀ k ∈ fields, m'.contains k = true) :
    Identifier.keyPairs (pairsOf fields m) = Identifier.keyPairs (pairsOf fields m') ↔
      ∀ k ∈ fields, m.AlikeAt m' k := by
  induction fields with
  | nil => exact ⟨fun _ _ h => absurd h List.not_mem_nil, fun _ => rfl⟩
  | cons field rest ih =>
    obtain ⟨held, complete⟩ := List.forall_mem_cons.1 complete
    obtain ⟨held', complete'⟩ := List.forall_mem_cons.1 complete'
    obtain ⟨v, found⟩ := Option.isSome_iff_exists.1 held
    obtain ⟨w, found'⟩ := Option.isSome_iff_exists.1 held'
    have alike : m.AlikeAt m' field ↔ v.Alike w := by
      simp only [FieldMap.AlikeAt, found, found', Option.mem_some_iff, exists_eq_left']
    rw [pairsOf_cons found, pairsOf_cons found', Identifier.keyPairs_cons_eq_iff,
      ih complete complete', List.forall_mem_cons, alike]
    simp only [true_and]

/-! ### Entities of records -/

/-- An identifier is that of an entity with the given values, all of which are there. -/
structure Identifies (schemaId : String) (keyFields : List String) (values : FieldMap)
    (id : String) : Prop where
  complete : ∀ k ∈ keyFields, values.contains k = true
  id_eq : id = Identifier.ofText (keyText schemaId keyFields values)

theorem keyText_eq_iff {schemaId : String} {keyFields : List String} {values values' : FieldMap}
    {id id' : String} (h : Identifies schemaId keyFields values id)
    (h' : Identifies schemaId keyFields values' id') :
    keyText schemaId keyFields values = keyText schemaId keyFields values' ↔
      ∀ k ∈ keyFields, values.AlikeAt values' k := by
  rw [keyText, keyText, Identifier.entityText_eq_iff,
    keyPairs_pairsOf_eq_iff h.complete h'.complete]

theorem contains_of_missing_eq_nil {fields : List String} {values : FieldMap}
    (h : ¬ fields.filter (fun k => !values.contains k) ≠ []) :
    ∀ k ∈ fields, values.contains k = true := by
  intro k hk
  simpa using List.filter_eq_nil_iff.1 (not_not.1 h) k hk

theorem identifies_of_factEntityId {f : FactSchema} {props : FieldMap} {id : String}
    (h : factEntityId f props = .ok id) : Identifies f.id f.keyFields props id := by
  unfold factEntityId at h
  dsimp only at h
  split at h
  case isTrue => cases h
  case isFalse none =>
    cases h
    exact ⟨contains_of_missing_eq_nil none, rfl⟩

theorem identifies_of_endpointEntityId {rel : RelSchema} {side : Side} {keys : FieldMap}
    {id : String} (h : endpointEntityId rel side keys = .ok id) :
    Identifies (rel.endpoint side).id (rel.keyFieldsOf side) keys id := by
  unfold endpointEntityId at h
  dsimp only at h
  split at h
  case h_1 => cases h
  case h_2 =>
    split at h
    case isTrue => cases h
    case isFalse none =>
      obtain ⟨_, -, h⟩ := bind_eq_ok.1 h
      cases h
      exact ⟨contains_of_missing_eq_nil none, rfl⟩

end Record

def RelationContent.keys (c : RelationContent) : EndpointKeys := ⟨c.sub, c.obj⟩

/-- The identifier of the entity at a side of a relation. -/
def Identity.entityAt? : Identity → Side → Option String
  | .entity _, _ => none
  | .relation subId _ _, .sub => some subId
  | .relation _ objId _, .obj => some objId

namespace Record

variable {terms : Terms} {o : RecordOptions} {r : Record}

theorem identifies_of_fact {f : FactSchema} (h : ofTerms (.fact f) terms o = .ok r) :
    ∃ id, r.identity = .entity id ∧ Identifies f.id f.keyFields r.props id := by
  obtain ⟨props, id, -, -, computed, rfl⟩ := ofTerms_fact_eq_ok h
  rw [identity_identified, props_identified]
  exact ⟨id, rfl, identifies_of_factEntityId computed⟩

theorem identifies_of_relation {rel : RelSchema} (h : ofTerms (.rel rel) terms o = .ok r)
    (side : Side) :
    ∃ c id, terms.relationContent rel o.mode = .ok c ∧ checkRelProps rel c.props = .ok () ∧
      r.identity.keys? = some c.keys ∧ r.identity.entityAt? side = some id ∧
      Identifies (rel.endpoint side).id (rel.keyFieldsOf side) (c.keys.at side) id := by
  obtain ⟨c, subId, objId, given, checked, subComputed, objComputed, rfl⟩ := ofTerms_rel_eq_ok h
  rw [identity_identified]
  cases side with
  | sub =>
    exact ⟨c, subId, given, checked, rfl, rfl, identifies_of_endpointEntityId subComputed⟩
  | obj =>
    exact ⟨c, objId, given, checked, rfl, rfl, identifies_of_endpointEntityId objComputed⟩

/-- **Identifiers of entities follow key values.** The text behind the identifier of an entity
record is that of another one over the schema exactly when all key values are alike, and the same
holds of the entities at either side of relation records. -/
theorem keyText_eq_iff_alike (f : FactSchema) (rel : RelSchema) (side : Side) :
    (∀ (terms terms' : Terms) (o o' : RecordOptions) (r r' : Record),
      ofTerms (.fact f) terms o = .ok r → ofTerms (.fact f) terms' o' = .ok r' →
      r.identity = .entity (Identifier.ofText (keyText f.id f.keyFields r.props)) ∧
        (keyText f.id f.keyFields r.props = keyText f.id f.keyFields r'.props ↔
          ∀ k ∈ f.keyFields, r.props.AlikeAt r'.props k)) ∧
    ∀ (terms terms' : Terms) (o o' : RecordOptions) (r r' : Record),
      ofTerms (.rel rel) terms o = .ok r → ofTerms (.rel rel) terms' o' = .ok r' →
      ∃ keys ∈ r.identity.keys?, ∃ keys' ∈ r'.identity.keys?,
        r.identity.entityAt? side = some (Identifier.ofText
          (keyText (rel.endpoint side).id (rel.keyFieldsOf side) (keys.at side))) ∧
        (keyText (rel.endpoint side).id (rel.keyFieldsOf side) (keys.at side) =
            keyText (rel.endpoint side).id (rel.keyFieldsOf side) (keys'.at side) ↔
          ∀ k ∈ rel.keyFieldsOf side, (keys.at side).AlikeAt (keys'.at side) k) := by
  constructor
  · intro terms terms' o o' r r' made made'
    obtain ⟨id, identity, identifies⟩ := identifies_of_fact made
    obtain ⟨id', -, identifies'⟩ := identifies_of_fact made'
    exact ⟨identifies.id_eq ▸ identity, keyText_eq_iff identifies identifies'⟩
  · intro terms terms' o o' r r' made made'
    obtain ⟨c, id, -, -, known, identity, identifies⟩ := identifies_of_relation made side
    obtain ⟨c', id', -, -, known', -, identifies'⟩ := identifies_of_relation made' side
    exact ⟨c.keys, known, c'.keys, known', identifies.id_eq ▸ identity,
      keyText_eq_iff identifies identifies'⟩

end Record

/-! ### Readings of a gauge -/

/-- Readings of a gauge, which are known by the level that they show. -/
def FactSchema.reading : FactSchema where
  name := "reading"
  signature := ⟨[⟨"level", "float", some .key, none⟩], by decide⟩
  keyFields := ["level"]
  keyFields_subset := by decide
  description := none
  mergePolicy := .latest
  id := _
  id_eq := rfl

/-- Of two readings, the one that follows the other. -/
def RelSchema.follows : RelSchema where
  name := "follows"
  sub := .reading
  obj := .reading
  subKeyFields := ["level"]
  subKeyFields_subset := by decide
  objKeyFields := ["level"]
  objKeyFields_subset := by decide
  props := ⟨[], by decide⟩
  names_nodup := by decide +kernel
  description := none
  mergePolicy := .latest
  id := _
  id_eq := rfl

namespace Record

/-- A level by the name of its field. -/
def levelAt (x : Binary64) : FieldMap := .ofList [("level", .float x)]

def readingOf (x : Binary64) : Record :=
  ⟨FactSchema.reading.id, .entity (Identifier.entity FactSchema.reading.id [("level", .float x)]),
    levelAt x, none, .empty, none⟩

/-- The reading of one level, which follows that of another one. -/
def followingOf (x y : Binary64) : Record :=
  ⟨RelSchema.follows.id, .relation (Identifier.entity FactSchema.reading.id [("level", .float x)])
    (Identifier.entity FactSchema.reading.id [("level", .float y)])
    (some ⟨levelAt x, levelAt y⟩), .empty, none, .empty, none⟩

/-- A record is made of any one of three levels. -/
theorem ofTerms_reading : ∀ x ∈ [Binary64.one, .nan, .infinity false],
    ofTerms (.fact .reading) (.keyed (levelAt x)) .default = .ok (readingOf x) := by
  simp only [List.forall_mem_cons, List.not_mem_nil, false_implies, implies_true, and_true]
  exact ⟨rfl, rfl, rfl⟩

/-- Readings of infinity and of no number at all differ in their key value, but not in the text
behind the identifier. -/
theorem keyText_nan_eq_keyText_infinity :
    ofTerms (.fact .reading) (.keyed (levelAt .nan)) .default = .ok (readingOf .nan) ∧
    ofTerms (.fact .reading) (.keyed (levelAt (.infinity false))) .default =
      .ok (readingOf (.infinity false)) ∧
    (∃ k ∈ FactSchema.reading.keyFields,
      (readingOf .nan).props.get? k ≠ (readingOf (.infinity false)).props.get? k) ∧
    keyText FactSchema.reading.id FactSchema.reading.keyFields (readingOf .nan).props =
      keyText FactSchema.reading.id FactSchema.reading.keyFields
        (readingOf (.infinity false)).props := by
  have nan := ofTerms_reading .nan (by decide)
  have infinity := ofTerms_reading (.infinity false) (by decide)
  refine ⟨nan, infinity, ⟨"level", .head _, by decide +kernel⟩, ?_⟩
  obtain ⟨_, -, identifies⟩ := identifies_of_fact nan
  obtain ⟨_, -, identifies'⟩ := identifies_of_fact infinity
  rw [keyText_eq_iff identifies identifies']
  intro k hk
  cases List.mem_singleton.1 hk
  have nonfinite : ∀ x ∈ [Binary64.nan, .infinity false], ¬ x.isFinite = true := by decide
  exact ⟨.float .nan, rfl, .float (.infinity false), rfl,
    .inr ⟨nonfinite _ (.head _), nonfinite _ (.tail _ (.head _))⟩⟩

theorem keyText_eq_iff_alike_reading :
    ofTerms (.fact .reading) (.keyed (levelAt .nan)) .default = .ok (readingOf .nan) ∧
    ofTerms (.fact .reading) (.keyed (levelAt .one)) .default = .ok (readingOf .one) ∧
    (keyText FactSchema.reading.id FactSchema.reading.keyFields (readingOf .nan).props =
        keyText FactSchema.reading.id FactSchema.reading.keyFields (readingOf .one).props ↔
      ∀ k ∈ FactSchema.reading.keyFields, (readingOf .nan).props.AlikeAt (readingOf .one).props k) ∧
    ofTerms (.rel .follows) (.positional [.float .one, .float .nan]) .default =
      .ok (followingOf .one .nan) ∧
    ofTerms (.rel .follows) (.positional [.float .one, .float (.infinity true)]) .default =
      .ok (followingOf .one (.infinity true)) ∧
    (keyText FactSchema.reading.id FactSchema.reading.keyFields (levelAt .nan) =
        keyText FactSchema.reading.id FactSchema.reading.keyFields (levelAt (.infinity true)) ↔
      ∀ k ∈ FactSchema.reading.keyFields, (levelAt .nan).AlikeAt (levelAt (.infinity true)) k) := by
  have nan := ofTerms_reading .nan (by decide)
  have one := ofTerms_reading .one (by decide)
  have first : ofTerms (.rel .follows) (.positional [.float .one, .float .nan]) .default =
      .ok (followingOf .one .nan) := rfl
  have second : ofTerms (.rel .follows) (.positional [.float .one, .float (.infinity true)])
      .default = .ok (followingOf .one (.infinity true)) := rfl
  obtain ⟨facts, relations⟩ := keyText_eq_iff_alike .reading .follows .obj
  obtain ⟨keys, known, keys', known', -, iff⟩ := relations _ _ _ _ _ _ first second
  cases known
  cases known'
  exact ⟨nan, one, (facts _ _ _ _ _ _ nan one).2, first, second, iff⟩

end Record

end Clausal
