import Clausal.Proofs.Record.Expanded

/-!
# Records by position

Main statement: `positional_toTerms`. A list of values makes a record by position exactly when it is
the list of terms of this record. One way goes through the cells that the values are put in
(`toTerms_of_positional`), the other one through the content that the terms give
(`ofTerms_of_toTerms`).
-/

namespace Clausal

/-! ### Content of a record -/

namespace Record

variable {r : Record} {values : List Value}

/-- The content of a record is that of the values in its cells. -/
theorem contentOf_eq {rel : RelSchema} {keys : EndpointKeys}
    (content : (Schema.rel rel).Content r.identity r.props) (known : r.identity.keys? = some keys)
    (held : rel.cells.map r.value? = values.map some) :
    rel.contentOf values = ⟨keys.sub, keys.obj, r.props⟩ := by
  refine RelationContent.ext_value? fun p => ?_
  have same : RelationContent.value? ⟨keys.sub, keys.obj, r.props⟩ p = r.value? p := by
    cases p with
    | key side field =>
      rw [value?, known]
      cases side <;> rfl
    | prop name => rfl
  rw [same]
  by_cases mem : p ∈ rel.cells
  · obtain ⟨length, each⟩ := map_eq_map_some_iff.1 held
    obtain ⟨v, mem⟩ := exists_mem_zip_left length mem
    exact (RelationContent.value?_contentOf mem).trans (each (p, v) mem).symm
  · rw [RelationContent.value?_contentOf_of_not_mem mem]
    exact (Option.not_isSome_iff_eq_none.1 ((content.isSome_value?_iff known).not.2 mem)).symm

/-- The field values of an entity record are those of its arguments. -/
theorem ofList_zip_eq {f : FactSchema} (fits : r.props.Fits f.signature)
    (held : f.signature.names.map r.props.get? = values.map some) :
    .ofList (f.signature.names.zip values) = r.props := by
  have distinct : ((f.signature.names.zip values).map (·.1)).Nodup :=
    nodup_zip f.signature.names_nodup values
  obtain ⟨length, each⟩ := map_eq_map_some_iff.1 held
  refine SortedMap.ext_get? fun name => Option.ext fun v => ?_
  rw [SortedMap.get?_ofList distinct]
  refine ⟨fun mem => each (name, v) mem, fun found => ?_⟩
  obtain ⟨a, declared, rfl, -⟩ := fits name v found
  have declared : a.name ∈ f.signature.names := List.mem_map_of_mem declared
  obtain ⟨w, mem⟩ := exists_mem_zip_left length declared
  cases (each (a.name, w) mem).symm.trans found
  exact mem

/-! ### Records by position -/

/-- Values by position are those of the arguments. -/
theorem toTerms_of_positional {s : Schema} {o : RecordOptions}
    (made : ofTerms s (.positional values) o = .ok r) : r.toTerms s = .ok values := by
  obtain ⟨here, content, known⟩ := content_of_ofTerms made
  refine toTerms_eq_ok_iff.2 ⟨here, known, ?_⟩
  cases s with
  | fact f =>
    obtain ⟨props, id, resolved, -⟩ := ofTerms_fact_eq_ok made
    obtain ⟨count, -⟩ := check_bind_eq_ok.1 resolved
    refine map_eq_map_some_iff.2 ⟨(Terms.length_of_checkArity count).symm, fun q mem => ?_⟩
    -- each value stands under the name of its argument
    have named : (q.1.name, q.2) ∈ f.signature.names.zip values := by
      rw [Signature.names, List.zip_map_left]
      exact List.mem_map_of_mem mem
    rw [argValue?_of_keys_none content.of_fact.1]
    exact value?_of_gives made (.fact named)
  | rel rel =>
    obtain ⟨keys, known⟩ := Option.ne_none_iff_exists'.1 (known rfl)
    obtain ⟨count, plain, eq⟩ := value?_of_positional made
    refine (map_argValue? known plain).trans (map_eq_map_some_iff.2 ⟨?_, fun q mem => ?_⟩)
    · rw [rel.length_cells]
      exact count.symm
    · rw [eq]
      exact RelationContent.value?_contentOf mem

/-- A relation record with terms has no prop with the role of a key field. -/
theorem plain_of_toTerms {rel : RelSchema} {keys : EndpointKeys}
    (content : (Schema.rel rel).Content r.identity r.props) (known : r.identity.keys? = some keys)
    (terms : r.toTerms (.rel rel) = .ok values) :
    ∀ a ∈ rel.props.args, ∀ side : Side, a.role ≠ some side.role := by
  intro a mem side role
  obtain ⟨-, -, held⟩ := toTerms_eq_ok_iff.1 terms
  have declared : a ∈ (Schema.rel rel).signature.args := List.mem_append_right _ mem
  have found : r.argValue? a ∈ values.map some := held ▸ List.mem_map_of_mem declared
  obtain ⟨v, -, found⟩ := List.mem_map.1 found
  have none := content.argValue?_of_endpointKey known mem (Arg.isEndpointKey_iff.2 ⟨side, role⟩)
  cases found.trans none

/-- The terms of an entity record are its field values in order. -/
theorem factProps_of_toTerms {f : FactSchema} (content : (Schema.fact f).Content r.identity r.props)
    (terms : r.toTerms (.fact f) = .ok values) :
    Terms.factProps f (.positional values) = .ok r.props := by
  obtain ⟨unknown, fits⟩ := content.of_fact
  obtain ⟨-, -, held⟩ := toTerms_eq_ok_iff.1 terms
  have count : values.length = (Schema.fact f).arity := (map_eq_map_some_iff.1 held).1.symm
  have named : f.signature.names.map r.props.get? = values.map some := by
    rw [← held, Signature.names, List.map_map]
    exact List.map_congr_left fun a _ => (argValue?_of_keys_none unknown a).symm
  rw [Terms.factProps, Terms.checkArity, if_pos count, ok_bind, ofList_zip_eq fits named]
  rfl

/-- The terms of a relation record are the values in its cells. -/
theorem relationContent_of_toTerms {rel : RelSchema} {keys : EndpointKeys}
    (content : (Schema.rel rel).Content r.identity r.props) (known : r.identity.keys? = some keys)
    (terms : r.toTerms (.rel rel) = .ok values) (mode : ResolveMode) :
    (Terms.positional values).relationContent rel mode = .ok ⟨keys.sub, keys.obj, r.props⟩ := by
  obtain ⟨-, -, held⟩ := toTerms_eq_ok_iff.1 terms
  have count : values.length = (Schema.rel rel).arity := (map_eq_map_some_iff.1 held).1.symm
  have plain := plain_of_toTerms content known terms
  rw [← contentOf_eq content known ((map_argValue? known plain).symm.trans held)]
  exact Shape.positional.relationContent_eq count plain

/-- The terms of a record make it again. -/
theorem ofTerms_of_toTerms {s : Schema} (accepted : Over s r) (terms : r.toTerms s = .ok values)
    (mode : ResolveMode) : ofTerms s (.positional values) ⟨r.prob, r.metadata, mode⟩ = .ok r := by
  obtain ⟨prob, metadata, describes, own⟩ := accepted.parts
  obtain ⟨here, known, -⟩ := toTerms_eq_ok_iff.1 terms
  have content := describes.content
  cases s with
  | fact f =>
    have given := factProps_of_toTerms content terms
    -- the identity is a field of the record, which has to be a variable for the cases
    generalize eq : r.identity = i at describes
    cases describes with
    | fact checked computed =>
      rw [eq, ← here] at own
      rw [ofTerms_fact prob metadata given checked computed]
      exact congrArg Except.ok own.symm
  | rel rel =>
    obtain ⟨keys, known⟩ := Option.ne_none_iff_exists'.1 (known rfl)
    have given := relationContent_of_toTerms content known terms mode
    generalize eq : r.identity = i at describes
    cases describes with
    | rel checked computed =>
      rw [eq] at known
      cases known
      obtain ⟨subject, object⟩ := computed keys rfl
      rw [eq, ← here] at own
      rw [ofTerms_rel prob metadata given checked subject object]
      exact congrArg Except.ok own.symm

/-- **Terms by position and the terms of a record are inverse.** Values that make a record by
position are its terms, and the terms of a record over a schema, be it made of terms of any shape or
loaded, make the same record again. -/
theorem positional_toTerms (s : Schema) :
    (∀ (values : List Value) (o : RecordOptions) (r : Record),
      ofTerms s (.positional values) o = .ok r → r.toTerms s = .ok values) ∧
    ∀ (r : Record) (values : List Value), Over s r → r.toTerms s = .ok values →
      ∀ mode, ofTerms s (.positional values) ⟨r.prob, r.metadata, mode⟩ = .ok r :=
  ⟨fun _ _ _ => toTerms_of_positional, fun _ _ => ofTerms_of_toTerms⟩

/-- The record of an acquaintance is given by name, and again by position. -/
theorem positional_toTerms_acquaintance :
    Over (.rel .knows) acquaintance ∧
    acquaintance.toTerms (.rel .knows) = .ok [.int 1, .int 2, .int 1999] ∧
    ofTerms (.rel .knows) (.positional [.int 1, .int 2, .int 1999]) registered =
      .ok acquaintance := by
  obtain ⟨listed, again⟩ := positional_toTerms (.rel .knows)
  have made : ofTerms (.rel .knows) (.positional [.int 1, .int 2, .int 1999]) registered =
      .ok acquaintance := rfl
  have accepted : Over (.rel .knows) acquaintance := .terms ofTerms_acquaintance
  have terms := listed _ _ _ made
  exact ⟨accepted, terms, again _ _ accepted terms .strict⟩

end Record

end Clausal
