import Clausal.Proofs.Record.KeyValues
import Clausal.Proofs.Record.Stored
import Clausal.Proofs.Schema.Sides

/-!
# Relations join entities

Main statement: `entities_join`. The identifier of an entity depends on the values of its key fields
only, and a relation gives an entity at one of its sides the identifier that the record of the
entity has, be it named by that record or by its key values in the places of that side. The places
of a side are sorted out by the roles of arguments (`keys_placeByRole`). A prop could have the role
of a side as well, but then it is missing among the props, and there is no record
(`role_ne_of_checkRelProps`).
-/

namespace Clausal

/-! ### Key values of a record -/

namespace Record

theorem pairsOf_congr {fields : List String} {m m' : FieldMap}
    (h : ∀ k ∈ fields, m.get? k = m'.get? k) : pairsOf fields m = pairsOf fields m' :=
  List.filterMap_congr fun k hk => by rw [h k hk]

theorem names_pairsOf {fields : List String} {values : FieldMap}
    (complete : ∀ k ∈ fields, values.contains k = true) :
    (pairsOf fields values).map (·.1) = fields := by
  induction fields with
  | nil => rfl
  | cons field rest ih =>
    obtain ⟨held, complete⟩ := List.forall_mem_cons.1 complete
    obtain ⟨v, found⟩ := Option.isSome_iff_exists.1 held
    rw [pairsOf_cons found, List.map_cons, ih complete]

/-- Pairs with different names are found again in their map. -/
theorem pairsOf_ofList {pairs : List (String × Value)} (distinct : (pairs.map (·.1)).Nodup) :
    pairsOf (pairs.map (·.1)) (.ofList pairs) = pairs := by
  have each : ∀ p ∈ pairs, ((SortedMap.ofList pairs).get? p.1).map (p.1, ·) = some p := by
    intro p hp
    rw [(SortedMap.get?_ofList distinct).2 hp]
    rfl
  rw [pairsOf, List.filterMap_map]
  exact (List.filterMap_congr each).trans List.filterMap_some

theorem pairsOf_ofList_pairsOf {fields : List String} {values : FieldMap} (distinct : fields.Nodup)
    (complete : ∀ k ∈ fields, values.contains k = true) :
    pairsOf fields (.ofList (pairsOf fields values)) = pairsOf fields values := by
  have names := names_pairsOf complete
  have found := pairsOf_ofList (names.symm ▸ distinct)
  rwa [names] at found

/-- Values that are listed in the order of some fields are paired with these fields. -/
theorem zip_eq_pairsOf {fields : List String} {listed : List Value} {values : FieldMap}
    (h : listed.map some = fields.map values.get?) : fields.zip listed = pairsOf fields values := by
  induction fields generalizing listed with
  | nil => rfl
  | cons field rest ih =>
    cases listed with
    | nil => cases h
    | cons v listed =>
      obtain ⟨found, others⟩ := List.cons.inj h
      rw [List.zip_cons_cons, pairsOf_cons found.symm, ih others]

end Record

/-! ### Arguments of a side -/

theorem Text.stripStart?_append (start s : String) : stripStart? start (start ++ s) = some s := by
  rw [stripStart?, String.toList_append, if_pos (by simp), ← String.length_toList,
    List.drop_left, String.ofList_toList]

theorem Side.bareName_start (side : Side) (key : String) :
    side.bareName (side.start ++ key) = key := by
  rw [bareName, Text.stripStart?_append, Option.getD_some]

namespace RelSchema

theorem bareNames_argsAt (rel : RelSchema) (side : Side) :
    (rel.argsAt side).map (fun a => side.bareName a.name) = rel.keyFieldsOf side := by
  have split : (rel.argsAt side).map (fun a => side.bareName a.name) =
      ((rel.argsAt side).map (·.name)).map side.bareName := by
    rw [List.map_map]
    rfl
  rw [split, names_argsAt, List.map_map]
  exact (List.map_congr_left fun key _ => side.bareName_start key).trans (List.map_id _)

/-- The values in the places of a side, when there is one for each argument. -/
def slots (rel : RelSchema) (values : List Value) : Side → List Value
  | .sub => values.take (rel.keyFieldsOf .sub).length
  | .obj => (values.drop (rel.keyFieldsOf .sub).length).take (rel.keyFieldsOf .obj).length

end RelSchema

/-! ### Placing values by role -/

section Zip

variable {α β : Type} {p : α → Bool} {xs ys : List α}

theorem zip_append_eq (xs ys : List α) (vs : List β) :
    (xs ++ ys).zip vs = xs.zip (vs.take xs.length) ++ ys.zip (vs.drop xs.length) := by
  induction xs generalizing vs with
  | nil => rfl
  | cons x rest ih =>
    cases vs with
    | nil => simp
    | cons v vs => simp [ih]

theorem filter_zip_of_all (h : ∀ x ∈ xs, p x = true) (vs : List β) :
    (xs.zip vs).filter (fun q => p q.1) = xs.zip vs :=
  List.filter_eq_self.2 fun _ hq => h _ (List.of_mem_zip hq).1

theorem filter_zip_of_none (h : ∀ x ∈ xs, p x = false) (vs : List β) :
    (xs.zip vs).filter (fun q => p q.1) = [] :=
  List.filter_eq_nil_iff.2 fun _ hq => by simp [h _ (List.of_mem_zip hq).1]

end Zip

theorem Side.role_injective {side side' : Side} (h : side.role = side'.role) : side = side' := by
  cases side <;> cases side' <;> first | rfl | cases h

namespace RelationContent

variable (c : RelationContent) (key : String) (v : Value)

theorem keys_withKey_self (side : Side) :
    (c.withKey side key v).keys.at side = (c.keys.at side).insert key v := by
  cases side <;> rfl

theorem keys_withKey_of_ne {side side' : Side} (h : side ≠ side') :
    (c.withKey side key v).keys.at side' = c.keys.at side' := by
  cases side <;> cases side' <;> first | rfl | exact absurd rfl h

theorem props_withKey (side : Side) : (c.withKey side key v).props = c.props := by
  cases side <;> rfl

end RelationContent

namespace Terms

theorem placeByRole_cons_key {side : Side} {q : Arg × Value} (role : q.1.role = some side.role)
    (c : RelationContent) (rest : List (Arg × Value)) :
    placeByRole c (q :: rest) =
      placeByRole (c.withKey side (side.bareName q.1.name) q.2) rest := by
  cases side with
  | sub => rw [placeByRole, role, Side.role]
  | obj => rw [placeByRole, role, Side.role]

theorem placeByRole_cons_prop {q : Arg × Value} (plain : ∀ side : Side, q.1.role ≠ some side.role)
    (c : RelationContent) (rest : List (Arg × Value)) :
    placeByRole c (q :: rest) = placeByRole (c.withProp q.1.name q.2) rest := by
  rw [placeByRole]
  split
  case h_1 role => exact absurd role (plain .sub)
  case h_2 role => exact absurd role (plain .obj)
  case h_3 => rfl

/-- The values at a side are those of the arguments with the role of that side. -/
theorem keys_placeByRole (c : RelationContent) (l : List (Arg × Value)) (side : Side) :
    (placeByRole c l).keys.at side =
      (l.filter fun q => q.1.role == some side.role).foldl
        (fun m q => m.insert (side.bareName q.1.name) q.2) (c.keys.at side) := by
  induction l generalizing c with
  | nil => rfl
  | cons q rest ih =>
    by_cases key : ∃ side' : Side, q.1.role = some side'.role
    · obtain ⟨side', role⟩ := key
      rw [placeByRole_cons_key role, ih]
      by_cases same : side' = side
      · subst same
        rw [List.filter_cons_of_pos (by simpa using role), List.foldl_cons,
          RelationContent.keys_withKey_self]
      · have other : q.1.role ≠ some side.role := fun h =>
          same (Side.role_injective (Option.some.inj (role.symm.trans h)))
        rw [List.filter_cons_of_neg (by simpa using other),
          RelationContent.keys_withKey_of_ne _ _ _ same]
    · rw [not_exists] at key
      rw [placeByRole_cons_prop key, ih, List.filter_cons_of_neg (by simpa using key side)]
      rfl

/-- A prop of the record has been given for an argument without the role of a side. -/
theorem exists_of_contains_placeByRole {c : RelationContent} {l : List (Arg × Value)}
    {name : String} (h : (placeByRole c l).props.contains name = true) :
    c.props.contains name = true ∨
      ∃ q ∈ l, q.1.name = name ∧ ∀ side : Side, q.1.role ≠ some side.role := by
  induction l generalizing c with
  | nil => exact .inl h
  | cons q rest ih =>
    have later : (∃ q ∈ rest, q.1.name = name ∧ ∀ side : Side, q.1.role ≠ some side.role) →
        ∃ q' ∈ q :: rest, q'.1.name = name ∧ ∀ side : Side, q'.1.role ≠ some side.role :=
      fun ⟨q', mem, found⟩ => ⟨q', .tail _ mem, found⟩
    by_cases key : ∃ side : Side, q.1.role = some side.role
    · obtain ⟨side, role⟩ := key
      rw [placeByRole_cons_key role] at h
      have held := (ih h).imp_right later
      rwa [RelationContent.props_withKey] at held
    · rw [not_exists] at key
      rw [placeByRole_cons_prop key] at h
      rcases ih h with held | found
      · rw [RelationContent.withProp, SortedMap.contains, SortedMap.get?_insert] at held
        split at held
        case isTrue same => exact .inr ⟨q, .head _, (Std.LawfulEqCmp.eq_of_compare same).symm, key⟩
        case isFalse => exact .inl held
      · exact .inr (later found)

theorem contains_of_checkRelProps {rel : RelSchema} {props : FieldMap}
    (h : Record.checkRelProps rel props = .ok ()) :
    ∀ k ∈ rel.props.names, props.contains k = true := by
  unfold Record.checkRelProps at h
  dsimp only at h
  split at h
  case isTrue => cases h
  case isFalse =>
    split at h
    case isTrue => cases h
    case isFalse none => exact Record.contains_of_missing_eq_nil none

/-- No prop of a relation record that is given by position has the role of a side. -/
theorem role_ne_of_checkRelProps {rel : RelSchema} {values : List Value}
    (h : Record.checkRelProps rel (placeByRole .empty (rel.signature.args.zip values)).props =
      .ok ()) (side : Side) : ∀ a ∈ rel.props.args, a.role ≠ some side.role := by
  intro a ha
  have held := contains_of_checkRelProps h a.name (List.mem_map_of_mem ha)
  rcases exists_of_contains_placeByRole held with none | ⟨q, mem, name, plain⟩
  · cases none
  · have declared : a ∈ rel.signature.args := List.mem_append_right _ ha
    have same := List.inj_on_of_nodup_map rel.signature.names_nodup (List.of_mem_zip mem).1 declared
      name
    exact same ▸ plain side

/-- The values in the places of a side go to the key fields of that side. -/
theorem keys_positional {rel : RelSchema} {side : Side} (values : List Value)
    (plain : ∀ a ∈ rel.props.args, a.role ≠ some side.role) :
    (placeByRole .empty (rel.signature.args.zip values)).keys.at side =
      .ofList ((rel.keyFieldsOf side).zip (rel.slots values side)) := by
  have props : ∀ a ∈ rel.props.args, (a.role == some side.role) = false := fun a ha => by
    simpa using plain a ha
  have placed : ((rel.signature.args.zip values).filter fun q => q.1.role == some side.role) =
      (rel.argsAt side).zip (rel.slots values side) := by
    rw [rel.args_signature, zip_append_eq, zip_append_eq, List.filter_append, List.filter_append,
      filter_zip_of_none props, List.append_nil, rel.length_argsAt, rel.length_argsAt]
    cases side with
    | sub =>
      rw [filter_zip_of_all (RelSchema.hasRole_argsAt rfl),
        filter_zip_of_none (RelSchema.hasRole_argsAt rfl), List.append_nil]
      rfl
    | obj =>
      rw [filter_zip_of_none (RelSchema.hasRole_argsAt rfl),
        filter_zip_of_all (RelSchema.hasRole_argsAt rfl), List.nil_append]
      rfl
  have empty : RelationContent.empty.keys.at side = .empty := by cases side <;> rfl
  rw [keys_placeByRole, placed, empty, ← rel.bareNames_argsAt, List.zip_map_left,
    SortedMap.ofList, List.foldl_map]
  rfl

/-- Terms of a relation that name the entity of a record at a side: by the record, or by its key
values in the places of the side. -/
inductive Name (rel : RelSchema) (e : Record) : Side → Terms → Prop
  | sub {obj props} : Name rel e .sub (.relation (.record e) obj props)
  | obj {sub props} : Name rel e .obj (.relation sub (.record e) props)
  | positional {side values}
    (slots : (rel.slots values side).map some = (rel.keyFieldsOf side).map e.props.get?) :
    Name rel e side (.positional values)

theorem length_of_checkArity {s : Schema} {found : ℕ} (h : checkArity s found = .ok ()) :
    found = s.arity := by
  rw [checkArity] at h
  split at h
  case isTrue same => exact same
  case isFalse => cases h

theorem endpointKeys_record {rel : RelSchema} {side : Side} {mode : ResolveMode} {e : Record}
    {keys : FieldMap} (h : endpointKeys rel side mode (.record e) = .ok keys) :
    keys = .ofList (Record.pairsOf (rel.keyFieldsOf side) e.props) := by
  rw [endpointKeys] at h
  split at h
  case isTrue => cases h
  case isFalse =>
    split at h
    case isTrue => cases h
    case isFalse => exact (Except.ok.inj h).symm

theorem endpointKeys_reference {rel : RelSchema} {side : Side} {mode : ResolveMode}
    {e : EntityRef} {keys : FieldMap} (h : endpointKeys rel side mode (.reference e) = .ok keys) :
    keys = side.bareKeys e.keyValues := by
  rw [endpointKeys] at h
  split at h
  case isTrue => cases h
  case isFalse => exact (Except.ok.inj h).symm

/-- A bare value is the one for the only key field. -/
theorem endpointKeys_scalar {rel : RelSchema} {side : Side} {mode : ResolveMode} {v : Value}
    {keys : FieldMap} (h : endpointKeys rel side mode (.scalar v) = .ok keys) :
    mode = .heuristic ∧ (rel.subKeyFields.length = 1 ∧ rel.objKeyFields.length = 1) ∧
      ∃ k, rel.keyFieldsOf side = [k] ∧ keys = .ofList [(k, v)] := by
  unfold endpointKeys at h
  dsimp only at h
  split at h
  case h_1 => cases h
  case h_2 k rest fields =>
    split at h
    case isTrue single =>
      obtain ⟨k', one⟩ := List.length_eq_one_iff.1 (RelSchema.length_keyFieldsOf single side)
      cases fields.symm.trans one
      exact ⟨rfl, single, k, fields, (Except.ok.inj h).symm⟩
    case isFalse => cases h
  case h_3 => cases h

theorem propValues_positional {rel : RelSchema} {values : List Value} {found : FieldMap}
    (h : propValues rel (.positional values) = .ok found) :
    values.length = rel.props.length ∧ found = .ofList (rel.props.names.zip values) := by
  rw [propValues] at h
  split at h
  case isTrue count => exact ⟨count, (Except.ok.inj h).symm⟩
  case isFalse => cases h

/-- Props that are given inline and nested have different names. -/
theorem propValues_named {rel : RelSchema} {inline nested found : FieldMap}
    (h : propValues rel (.named inline nested) = .ok found) :
    (∀ name ∈ nested.keys, inline.contains name ≠ true) ∧ found = inline.union nested := by
  rw [propValues] at h
  split at h
  case isTrue apart => exact ⟨List.filter_eq_nil_iff.1 apart, (Except.ok.inj h).symm⟩
  case isFalse => cases h

/-- The endpoints and the props of a relation are resolved one by one. -/
theorem content_of_relation {rel : RelSchema} {mode : ResolveMode} {c : RelationContent}
    {sub obj : Endpoint} {props : Props}
    (h : (relation sub obj props).relationContent rel mode = .ok c) :
    endpointKeys rel .sub mode sub = .ok c.sub ∧ endpointKeys rel .obj mode obj = .ok c.obj ∧
      propValues rel props = .ok c.props := by
  obtain ⟨subKeys, subject, h⟩ := bind_eq_ok.1 h
  obtain ⟨objKeys, object, h⟩ := bind_eq_ok.1 h
  obtain ⟨values, named, h⟩ := bind_eq_ok.1 h
  cases h
  exact ⟨subject, object, named⟩

/-- However an entity is named, its key values are those that the relation record is given. -/
theorem Name.keys_eq {rel : RelSchema} {e : Record} {side : Side} {terms : Terms}
    (name : Name rel e side terms) {mode : ResolveMode} {c : RelationContent}
    (given : terms.relationContent rel mode = .ok c)
    (checked : Record.checkRelProps rel c.props = .ok ()) :
    c.keys.at side = .ofList (Record.pairsOf (rel.keyFieldsOf side) e.props) := by
  cases name with
  | sub => exact endpointKeys_record (content_of_relation given).1
  | obj => exact endpointKeys_record (content_of_relation given).2.1
  | positional slots =>
    obtain ⟨_, -, given⟩ := bind_eq_ok.1 given
    cases given
    rw [keys_positional _ (role_ne_of_checkRelProps checked side), Record.zip_eq_pairsOf slots]

end Terms

namespace Record

/-! ### Entities and relations -/

/-- The records over a schema, be they made of terms or loaded. -/
inductive Over (s : Schema) : Record → Prop
  | terms {terms o r} (h : ofTerms s terms o = .ok r) : Over s r
  | stored {p source r} (found : source p.schemaId = .ok s) (h : ofPayload p source = .ok r) :
    Over s r

/-- A record over a schema is made of checked parts, be it new or loaded. -/
theorem Over.parts {s : Schema} {r : Record} (h : Over s r) :
    checkProbability r.prob = .ok () ∧ r.metadata.check = .ok () ∧
      s.Describes r.identity r.props ∧
      r = identified ⟨r.schemaId, r.identity, r.props, r.prob, r.metadata, none⟩ s.mergePolicy := by
  cases h with
  | terms made =>
    obtain ⟨prob, metadata, i, props, content, -, rfl⟩ := describes_of_ofTerms made
    rw [identity_identified, props_identified, schemaId_identified, prob_identified,
      metadata_identified]
    exact ⟨prob, metadata, content, rfl⟩
  | stored found loaded =>
    obtain ⟨prob, m, i, read, content, rfl⟩ := describes_of_found found loaded
    rw [identity_identified, props_identified, schemaId_identified, prob_identified,
      metadata_identified]
    exact ⟨prob, Metadata.check_of_ofMembers read, content, rfl⟩

theorem Over.identifies {f : FactSchema} {r : Record} (h : Over (.fact f) r) :
    ∃ id, r.identity = .entity id ∧ Identifies f.id f.keyFields r.props id := by
  cases h with
  | terms h => exact identifies_of_fact h
  | stored found h =>
    have content := (conforms_of_found found h).2.content
    generalize r.identity = identity at content
    cases content with
    | fact _ computed => exact ⟨_, rfl, identifies_of_factEntityId computed⟩

theorem Identifies.eq_of_pairsOf {schemaId : String} {keyFields : List String}
    {values values' : FieldMap} {id id' : String} (h : Identifies schemaId keyFields values id)
    (h' : Identifies schemaId keyFields values' id')
    (agree : pairsOf keyFields values = pairsOf keyFields values') : id = id' := by
  rw [h.id_eq, h'.id_eq, keyText, keyText, agree]

/-- **Identifiers depend on key values only, and relations join entities.** -/
theorem entities_join (f : FactSchema) :
    (∀ r r' : Record, Over (.fact f) r → Over (.fact f) r' →
      (∀ k ∈ f.keyFields, r.props.get? k = r'.props.get? k) →
      ∃ id, r.identity = .entity id ∧ r'.identity = .entity id) ∧
    ∀ (rel : RelSchema) (side : Side) (e r : Record) (terms : Terms) (o : RecordOptions),
      rel.endpoint side = f → rel.keyFieldsOf side = f.keyFields → Over (.fact f) e →
      terms.Name rel e side → ofTerms (.rel rel) terms o = .ok r →
      ∃ id, e.identity = .entity id ∧ r.identity.entityAt? side = some id := by
  constructor
  · intro r r' made made' agree
    obtain ⟨id, identity, identifies⟩ := made.identifies
    obtain ⟨id', identity', identifies'⟩ := made'.identifies
    have same := identifies.eq_of_pairsOf identifies' (pairsOf_congr agree)
    exact ⟨id, identity, same ▸ identity'⟩
  · rintro rel side e r terms o rfl keyFields known name made
    obtain ⟨id, identity, identifies⟩ := known.identifies
    obtain ⟨c, id', given, checked, -, joined, identifies'⟩ := identifies_of_relation made side
    -- the keys at the side are the key fields of the entity record, by either shape of terms
    have distinct := keyFields ▸ rel.nodup_keyFieldsOf side
    have keys : c.keys.at side = .ofList (pairsOf (rel.endpoint side).keyFields e.props) :=
      keyFields ▸ name.keys_eq given checked
    rw [keyFields, keys] at identifies'
    have same := identifies.eq_of_pairsOf identifies'
      (pairsOf_ofList_pairsOf distinct identifies.complete).symm
    exact ⟨id, identity, same ▸ joined⟩

/-- A person of a known weight. -/
def weighed (number : Int64) : Record :=
  identified ⟨FactSchema.person.id,
    .entity (Identifier.entity FactSchema.person.id [("number", .int number)]),
    .ofList [("number", .int number), ("weight", .float .one)], none, .empty, none⟩ .keepAll

/-- What a register says about number 1: not the weight. -/
def recorded : Record :=
  identified ⟨FactSchema.person.id,
    .entity (Identifier.entity FactSchema.person.id [("number", .int 1)]), personKeys 1,
    registered.prob, registered.metadata, none⟩ .keepAll

theorem entities_join_acquaintance :
    ofTerms (.fact .person) (.positional [.int 1, .float .one]) .default = .ok (weighed 1) ∧
    ofTerms (.fact .person) (.keyed (personKeys 1)) registered = .ok recorded ∧
    (∃ id, (weighed 1).identity = .entity id ∧ recorded.identity = .entity id) ∧
    ofTerms (.rel .knows) (.relation (.record (weighed 1)) (.keys (personKeys 2))
      (.positional [.int 1999])) registered = .ok acquaintance ∧
    (∃ id, (weighed 1).identity = .entity id ∧ acquaintance.identity.entityAt? .sub = some id) ∧
    ofTerms (.fact .person) (.positional [.int 2, .float .one]) .default = .ok (weighed 2) ∧
    ofTerms (.rel .knows) (.positional [.int 1, .int 2, .int 1999]) registered =
      .ok acquaintance ∧
    ∃ id, (weighed 2).identity = .entity id ∧ acquaintance.identity.entityAt? .obj = some id := by
  have first : ofTerms (.fact .person) (.positional [.int 1, .float .one]) .default =
      .ok (weighed 1) := rfl
  have again : ofTerms (.fact .person) (.keyed (personKeys 1)) registered = .ok recorded := rfl
  have resolved : Terms.endpointKeys .knows .sub registered.mode (.record (weighed 1)) =
      .ok (personKeys 1) := if_neg (not_not.2 rfl)
  have content : Terms.relationContent .knows registered.mode
      (.relation (.record (weighed 1)) (.keys (personKeys 2)) (.positional [.int 1999])) =
        .ok ⟨personKeys 1, personKeys 2, .ofList [("since", .int 1999)]⟩ := by
    rw [Terms.relationContent, resolved]
    rfl
  have named : ofTerms (.rel .knows) (.relation (.record (weighed 1)) (.keys (personKeys 2))
      (.positional [.int 1999])) registered = .ok acquaintance := by
    simp only [ofTerms, content]
    rfl
  have second : ofTerms (.fact .person) (.positional [.int 2, .float .one]) .default =
      .ok (weighed 2) := rfl
  have listed : ofTerms (.rel .knows) (.positional [.int 1, .int 2, .int 1999]) registered =
      .ok acquaintance := rfl
  obtain ⟨same, joined⟩ := entities_join .person
  refine ⟨first, again, same _ _ (.terms first) (.terms again) fun k hk => ?_, named,
    joined .knows .sub _ _ _ _ rfl rfl (.terms first) .sub named, second, listed,
    joined .knows .obj _ _ _ _ rfl rfl (.terms second) (.positional rfl) listed⟩
  cases List.mem_singleton.1 hk
  rfl

end Record

end Clausal
