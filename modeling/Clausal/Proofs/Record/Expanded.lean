import Clausal.Expr
import Clausal.Proofs.Record.Kept

/-!
# Records as terms

Main statement: `expands`. A relation record that is made of terms gives terms again, one value for
each argument, and they make a reference. This fails only if a prop of the relation has the role of
a key field: where a value is looked for goes by the role of the argument (`argValue?_of_role`),
where it was put goes by the name of the prop.
-/

namespace Clausal

/-! ### Lists of values that are there -/

theorem map_eq_map_some_iff {α β : Type} {f : α → Option β} {xs : List α} {ys : List β} :
    xs.map f = ys.map some ↔ xs.length = ys.length ∧ ∀ q ∈ xs.zip ys, f q.1 = some q.2 := by
  rw [← List.forall₂_eq_eq_eq, List.forall₂_map_left_iff, List.forall₂_map_right_iff,
    List.forall₂_iff_zip]
  simp only [Prod.forall]

theorem exists_map_eq_map_some {α β : Type} {f : α → Option β} {xs : List α}
    (held : ∀ x ∈ xs, (f x).isSome = true) : ∃ ys : List β, xs.map f = ys.map some := by
  induction xs with
  | nil => exact ⟨[], rfl⟩
  | cons x rest ih =>
    obtain ⟨first, held⟩ := List.forall_mem_cons.1 held
    obtain ⟨y, found⟩ := Option.isSome_iff_exists.1 first
    obtain ⟨ys, eq⟩ := ih held
    exact ⟨y :: ys, by rw [List.map_cons, List.map_cons, found, eq]⟩

/-! ### Values of arguments -/

namespace Record

variable {r : Record} {a : Arg}

theorem argValue?_of_keys_none (unknown : r.identity.keys? = none) (a : Arg) :
    r.argValue? a = r.props.get? a.name := by
  unfold argValue?
  rw [unknown]
  split <;> first | rfl | contradiction

/-- An argument with the role of a side is looked for among the key values of that side. -/
theorem argValue?_of_role {side : Side} {keys : EndpointKeys} (known : r.identity.keys? = some keys)
    (role : a.role = some side.role) :
    r.argValue? a = Text.stripStart? side.start a.name >>= (keys.at side).get? := by
  unfold argValue?
  rw [known, role]
  cases side <;> rfl

theorem argValue?_of_plain (plain : ∀ side : Side, a.role ≠ some side.role) :
    r.argValue? a = r.props.get? a.name := by
  unfold argValue?
  split
  case h_1 role _ => exact absurd role (plain .sub)
  case h_2 role _ => exact absurd role (plain .obj)
  case h_3 => rfl

/-! ### Terms of a record -/

theorem argValues_eq_ok_iff {predicate : String} {args : List Arg} {values : List Value} :
    r.argValues predicate args = .ok values ↔ args.map r.argValue? = values.map some := by
  induction args generalizing values with
  | nil =>
    cases values with
    | nil => exact iff_of_true rfl rfl
    | cons => exact iff_of_false nofun nofun
  | cons a rest ih =>
    rw [argValues, List.map_cons]
    cases r.argValue? a with
    | none => exact iff_of_false nofun (by cases values <;> exact nofun)
    | some v =>
      rw [bind_eq_ok]
      constructor
      · rintro ⟨others, found, made⟩
        cases made
        rw [ih.1 found, List.map_cons]
      · intro h
        cases values with
        | nil => cases h
        | cons w others =>
          obtain ⟨same, found⟩ := List.cons.inj h
          cases same
          exact ⟨others, ih.2 found, rfl⟩

/-- The first argument without a value is what the error is about. -/
theorem argValues_eq_error {predicate : String} {before after : List Arg}
    (held : ∀ b ∈ before, (r.argValue? b).isSome = true) (none : r.argValue? a = none) :
    r.argValues predicate (before ++ a :: after) =
      .error (.invalidTerms predicate (.noValue a.name)) := by
  induction before with
  | nil => rw [List.nil_append, argValues, none]
  | cons b rest ih =>
    obtain ⟨first, held⟩ := List.forall_mem_cons.1 held
    obtain ⟨v, found⟩ := Option.isSome_iff_exists.1 first
    rw [List.cons_append, argValues, found]
    dsimp only
    rw [ih held]
    rfl

theorem toTerms_eq_argValues {s : Schema} (here : s.id = r.schemaId)
    (known : s.kind = .rel → r.identity.keys? ≠ none) :
    r.toTerms s = r.argValues s.name s.signature.args := by
  have known : ¬(s.kind = .rel ∧ r.identity.keys? = none) := fun h => known h.1 h.2
  rw [toTerms, if_neg (not_not.2 here), if_neg known]

theorem toTerms_eq_ok_iff {s : Schema} {values : List Value} :
    r.toTerms s = .ok values ↔ s.id = r.schemaId ∧ (s.kind = .rel → r.identity.keys? ≠ none) ∧
      s.signature.args.map r.argValue? = values.map some := by
  by_cases here : s.id = r.schemaId
  · by_cases known : s.kind = .rel → r.identity.keys? ≠ none
    · rw [toTerms_eq_argValues here known, argValues_eq_ok_iff]
      exact ⟨fun h => ⟨here, known, h⟩, fun h => h.2.2⟩
    · refine iff_of_false (fun h => ?_) fun h => known h.2.1
      rw [toTerms, if_neg (not_not.2 here), if_pos] at h
      · cases h
      · simpa using known
  · refine iff_of_false (fun h => ?_) fun h => here h.1
    rw [toTerms, if_pos here] at h
    cases h

end Record

/-! ### Arguments and cells -/

/-- The argument has the role of a key field of an endpoint. -/
def Arg.isEndpointKey (a : Arg) : Bool := a.role == some .subKey || a.role == some .objKey

theorem Arg.isEndpointKey_iff {a : Arg} :
    a.isEndpointKey = true ↔ ∃ side : Side, a.role = some side.role := by
  rw [isEndpointKey, Bool.or_eq_true, beq_iff_eq, beq_iff_eq]
  constructor
  · rintro (role | role)
    · exact ⟨.sub, role⟩
    · exact ⟨.obj, role⟩
  · rintro ⟨side, role⟩
    cases side with
    | sub => exact .inl role
    | obj => exact .inr role

namespace Record

variable {rel : RelSchema} {r : Record} {a : Arg} {keys : EndpointKeys}

theorem argValue?_of_mem_argsAt {side : Side} (known : r.identity.keys? = some keys)
    (mem : a ∈ rel.argsAt side) : r.argValue? a = r.value? a.cell := by
  obtain ⟨k, -, b, -, rfl⟩ := RelSchema.exists_of_mem_argsAt mem
  rw [argValue?_of_role known rfl, Arg.cell_key rfl, Side.bareName_start, Text.stripStart?_append,
    value?, known]
  rfl

/-- Without a prop that has the role of a side, each argument has the value in its cell. -/
theorem map_argValue? (known : r.identity.keys? = some keys)
    (plain : ∀ a ∈ rel.props.args, ∀ side : Side, a.role ≠ some side.role) :
    rel.signature.args.map r.argValue? = rel.cells.map r.value? := by
  rw [← RelSchema.map_cell_args plain, List.map_map]
  refine List.map_congr_left fun a mem => ?_
  rw [RelSchema.args_signature, List.mem_append, List.mem_append] at mem
  rcases mem with mem | mem | mem
  · exact argValue?_of_mem_argsAt known mem
  · exact argValue?_of_mem_argsAt known mem
  · rw [argValue?_of_plain (plain a mem), Function.comp_apply, Arg.cell_prop (plain a mem)]
    rfl

end Record

namespace Schema.Content

variable {f : FactSchema} {rel : RelSchema} {i : Identity} {props : FieldMap} {r : Record} {a : Arg}
  {keys : EndpointKeys}

theorem of_fact (content : (Schema.fact f).Content i props) :
    i.keys? = none ∧ props.Fits f.signature := by
  cases content with
  | entity fits _ => exact ⟨rfl, fits⟩

theorem of_rel (content : (Schema.rel rel).Content i props) (known : i.keys? = some keys) :
    (∀ side, ∃ id, rel.HasKey side (keys.at side) id) ∧
      (∀ k, props.contains k = true ↔ k ∈ rel.props.names) ∧ props.Fits rel.props := by
  cases content with
  | relation exact fits keyed =>
    obtain ⟨sub, obj⟩ := keyed keys known
    refine ⟨fun side => ?_, exact, fits⟩
    cases side with
    | sub => exact ⟨_, sub⟩
    | obj => exact ⟨_, obj⟩

/-- Exactly the cells of its schema have values in a relation record with known key values. -/
theorem isSome_value?_iff (content : (Schema.rel rel).Content r.identity r.props)
    (known : r.identity.keys? = some keys) {p : Cell} :
    (r.value? p).isSome = true ↔ p ∈ rel.cells := by
  obtain ⟨keyed, exact, -⟩ := content.of_rel known
  cases p with
  | key side field =>
    obtain ⟨id, keyed⟩ := keyed side
    rw [RelSchema.key_mem_cells, Record.value?, known]
    exact keyed.exact field
  | prop name =>
    rw [RelSchema.prop_mem_cells]
    exact exact name

/-- A prop with the role of a side has no value: there is no key field that it could be for. -/
theorem argValue?_of_endpointKey (content : (Schema.rel rel).Content r.identity r.props)
    (known : r.identity.keys? = some keys) (mem : a ∈ rel.props.args)
    (role : a.isEndpointKey = true) : r.argValue? a = none := by
  obtain ⟨side, role⟩ := Arg.isEndpointKey_iff.1 role
  rw [Record.argValue?_of_role known role]
  cases strip : Text.stripStart? side.start a.name with
  | none => rfl
  | some k =>
    have name := Text.eq_append_of_stripStart? strip
    have prop : side.start ++ k ∈ rel.props.names := name ▸ List.mem_map_of_mem mem
    have cell : .key side k ∉ rel.cells := fun key =>
      RelSchema.start_append_not_mem_props (RelSchema.key_mem_cells.1 key) prop
    have empty := mt (content.isSome_value?_iff known).1 cell
    rw [Record.value?, known, Option.not_isSome_iff_eq_none] at empty
    exact empty

end Schema.Content

/-! ### Values fit their arguments -/

theorem Arg.plain_of_isEndpointKey {a : Arg} (h : a.isEndpointKey = false) (side : Side) :
    a.role ≠ some side.role := fun role =>
  Bool.noConfusion (h.symm.trans (isEndpointKey_iff.2 ⟨side, role⟩))

theorem RelSchema.HasKey.fits_of_mem_argsAt {rel : RelSchema} {side : Side} {keys : FieldMap}
    {id : String} {a : Arg} {v : Value} (h : rel.HasKey side keys id) (mem : a ∈ rel.argsAt side)
    (found : keys.get? (side.bareName a.name) = some v) : v.fits a.datatype = true := by
  obtain ⟨k, -, b, declared, rfl⟩ := exists_of_mem_argsAt mem
  rw [Side.bareName_start] at found
  obtain ⟨listed, rfl⟩ := Signature.find?_eq_some_iff.1 declared
  have fits := h.fits.of_mem listed found
  exact fits

/-- The value of an argument fits its datatype. -/
theorem Schema.Content.fits_of_argValue? {s : Schema} {r : Record} {a : Arg} {v : Value}
    (content : s.Content r.identity r.props) (known : s.kind = .rel → r.identity.keys? ≠ none)
    (mem : a ∈ s.signature.args) (found : r.argValue? a = some v) : v.fits a.datatype = true := by
  cases s with
  | fact f =>
    obtain ⟨unknown, fits⟩ := content.of_fact
    rw [Record.argValue?_of_keys_none unknown] at found
    exact fits.of_mem mem found
  | rel rel =>
    obtain ⟨keys, known⟩ := Option.ne_none_iff_exists'.1 (known rfl)
    obtain ⟨keyed, -, fits⟩ := content.of_rel known
    have key (side : Side) (mem : a ∈ rel.argsAt side) : v.fits a.datatype = true := by
      obtain ⟨id, keyed⟩ := keyed side
      rw [Record.argValue?_of_mem_argsAt known mem, Arg.cell_key (RelSchema.role_of_mem_argsAt mem),
        Record.value?, known] at found
      exact keyed.fits_of_mem_argsAt mem found
    have mem : a ∈ rel.signature.args := mem
    rw [RelSchema.args_signature, List.mem_append, List.mem_append] at mem
    rcases mem with mem | mem | mem
    · exact key .sub mem
    · exact key .obj mem
    · -- a prop with the role of an endpoint key is looked for among the keys, where it is not
      cases role : a.isEndpointKey with
      | true => cases (content.argValue?_of_endpointKey known mem role).symm.trans found
      | false =>
        rw [Record.argValue?_of_plain (a.plain_of_isEndpointKey role)] at found
        exact fits.of_mem mem found

/-! ### References -/

theorem Term.checkFrom_constants {predicate : String} {values : List Value} {args : List Arg}
    {position : ℕ} (fits : ∀ q ∈ values.zip args, q.1.fits q.2.datatype = true) :
    checkFrom predicate position ((Ref.constants values args).zip args) = .ok () := by
  induction values generalizing args position with
  | nil => rfl
  | cons v values ih =>
    cases args with
    | nil => rfl
    | cons a args =>
      obtain ⟨first, others⟩ := List.forall_mem_cons.1 fits
      have agree : (some a.datatype).any (!Datatype.agree · a.datatype) = false := by
        simp [Datatype.agree]
      have checked : check predicate position a (.const ⟨v, some a.datatype⟩) = .ok () := by
        rw [check, if_neg (by rw [agree]; exact Bool.false_ne_true)]
        exact Record.checkValue_eq_ok_iff.2 first
      rw [Ref.constants, List.zip_cons_cons, List.map_cons, List.zip_cons_cons, checkFrom, checked,
        ok_bind]
      exact ih others

namespace Record

variable {s : Schema} {r : Record}

/-- The record has a value for each argument of a predicate, and there is a reference to it. -/
def Expands (r : Record) (s : Schema) : Prop :=
  ∃ values, r.toTerms s = .ok values ∧ values.length = s.arity ∧
    Ref.ofRecord r s = .ok (.unchecked s.id (Ref.constants values s.signature.args))

theorem expands_of_toTerms {values : List Value} (content : s.Content r.identity r.props)
    (h : r.toTerms s = .ok values) : r.Expands s := by
  obtain ⟨-, known, held⟩ := toTerms_eq_ok_iff.1 h
  obtain ⟨length, each⟩ := map_eq_map_some_iff.1 held
  have count : values.length = s.arity := length.symm
  have fits : ∀ q ∈ values.zip s.signature.args, q.1.fits q.2.datatype = true := by
    rintro ⟨v, a⟩ mem
    have swapped : (a, v) ∈ s.signature.args.zip values := by
      rw [← List.zip_swap]
      exact List.mem_map_of_mem mem
    exact content.fits_of_argValue? known (List.of_mem_zip mem).2 (each _ swapped)
  refine ⟨values, h, count, ?_⟩
  have checked : Term.checkAll s (Ref.constants values s.signature.args) = .ok () := by
    have length : (Ref.constants values s.signature.args).length = s.arity := by
      rw [Ref.constants, List.length_map, List.length_zip, count]
      exact Nat.min_self _
    rw [Term.checkAll, if_neg (not_not.2 length)]
    exact Term.checkFrom_constants fits
  rw [Ref.ofRecord, h, ok_bind, Ref.ofTerms, checked]
  rfl

/-! ### Records that expand -/

/-- Without a prop that has the role of a side, the arguments of a relation have values. -/
theorem expands_of_plain {rel : RelSchema} {keys : EndpointKeys}
    (content : (Schema.rel rel).Content r.identity r.props) (here : rel.id = r.schemaId)
    (known : r.identity.keys? = some keys)
    (plain : ∀ a ∈ rel.props.args, ∀ side : Side, a.role ≠ some side.role) :
    r.Expands (.rel rel) := by
  obtain ⟨values, held⟩ := exists_map_eq_map_some fun p mem =>
    (content.isSome_value?_iff known (p := p)).2 mem
  have known' : r.identity.keys? ≠ none := known ▸ Option.some_ne_none keys
  have terms : r.toTerms (.rel rel) = .ok values :=
    toTerms_eq_ok_iff.2 ⟨here, fun _ => known', (map_argValue? known plain).trans held⟩
  exact expands_of_toTerms content terms

/-- The first prop with the role of a side is missing among the terms. -/
theorem toTerms_of_endpointKey {rel : RelSchema} {keys : EndpointKeys} {a : Arg}
    (content : (Schema.rel rel).Content r.identity r.props) (here : rel.id = r.schemaId)
    (known : r.identity.keys? = some keys)
    (first : rel.props.args.find? Arg.isEndpointKey = some a) :
    r.toTerms (.rel rel) = .error (.invalidTerms rel.name (.noValue a.name)) := by
  obtain ⟨role, before, after, split, plain⟩ := List.find?_eq_some_iff_append.1 first
  have args : (Schema.rel rel).signature.args =
      (rel.argsAt .sub ++ (rel.argsAt .obj ++ before)) ++ a :: after := by
    rw [List.append_assoc, List.append_assoc, ← split]
    exact rel.args_signature
  have mem (b : Arg) (hb : b ∈ before ∨ b = a) : b ∈ rel.props.args := by
    rw [split]
    rcases hb with hb | rfl
    · exact List.mem_append_left _ hb
    · exact List.mem_append_right _ List.mem_cons_self
  have known' : r.identity.keys? ≠ none := known ▸ Option.some_ne_none keys
  rw [toTerms_eq_argValues (s := .rel rel) here fun _ => known', args]
  -- each argument before it has a value, so that the failure is the first
  refine argValues_eq_error (fun b hb => ?_)
    (content.argValue?_of_endpointKey known (mem a (.inr rfl)) role)
  have key (side : Side) (hb : b ∈ rel.argsAt side) : (r.argValue? b).isSome = true := by
    rw [argValue?_of_mem_argsAt known hb, content.isSome_value?_iff known,
      Arg.cell_key (RelSchema.role_of_mem_argsAt hb), RelSchema.key_mem_cells,
      ← RelSchema.bareNames_argsAt]
    exact List.mem_map_of_mem hb
  rw [List.mem_append, List.mem_append] at hb
  rcases hb with hb | hb | hb
  · exact key .sub hb
  · exact key .obj hb
  · have plain := b.plain_of_isEndpointKey (by simpa using plain b hb)
    rw [argValue?_of_plain plain]
    exact (content.isSome_value?_iff known (p := .prop b.name)).2
      (RelSchema.prop_mem_cells.2 (List.mem_map_of_mem (mem b (.inl hb))))

/-- An entity record expands exactly when it has all the values that it can have. -/
theorem expands_fact_iff {f : FactSchema} (content : (Schema.fact f).Content r.identity r.props)
    (here : f.id = r.schemaId) :
    r.Expands (.fact f) ↔ ∀ name ∈ f.signature.names, r.props.contains name = true := by
  obtain ⟨unknown, -⟩ := content.of_fact
  constructor
  · rintro ⟨values, terms, -⟩ name mem
    obtain ⟨a, declared, rfl⟩ := List.mem_map.1 mem
    obtain ⟨-, -, held⟩ := toTerms_eq_ok_iff.1 terms
    have found : r.argValue? a ∈ values.map some := held ▸ List.mem_map_of_mem declared
    obtain ⟨v, -, found⟩ := List.mem_map.1 found
    rw [argValue?_of_keys_none unknown] at found
    exact Option.isSome_iff_exists.2 ⟨v, found.symm⟩
  · intro complete
    have held : ∀ a ∈ f.signature.args, (r.argValue? a).isSome = true := fun a mem => by
      rw [argValue?_of_keys_none unknown]
      exact complete a.name (List.mem_map_of_mem mem)
    obtain ⟨values, listed⟩ := exists_map_eq_map_some held
    exact expands_of_toTerms content (toTerms_eq_ok_iff.2 ⟨here, nofun, listed⟩)

/-- **Relation records expand**, unless a prop has the role of a key field. Then no record expands:
the value of this prop is looked for among the key values, and the error is about the first prop of
this kind. An entity record expands exactly when it has a value for each argument. -/
theorem expands (rel : RelSchema) (f : FactSchema) :
    (∀ (terms : Terms) (o : RecordOptions) (r : Record), ofTerms (.rel rel) terms o = .ok r →
      (rel.props.args.find? Arg.isEndpointKey = none → r.Expands (.rel rel)) ∧
      ∀ a, rel.props.args.find? Arg.isEndpointKey = some a →
        r.toTerms (.rel rel) = .error (.invalidTerms rel.name (.noValue a.name)) ∧
        Ref.ofRecord r (.rel rel) = .error (.invalidTerms rel.name (.noValue a.name))) ∧
    ∀ r : Record, Over (.fact f) r → f.id = r.schemaId →
      (r.Expands (.fact f) ↔ ∀ name ∈ f.signature.names, r.props.contains name = true) := by
  constructor
  · intro terms o r made
    obtain ⟨here, content, known⟩ := content_of_ofTerms made
    obtain ⟨keys, known⟩ := Option.ne_none_iff_exists'.1 (known rfl)
    constructor
    · intro none
      refine expands_of_plain content here known fun a mem => a.plain_of_isEndpointKey ?_
      exact Bool.eq_false_of_not_eq_true (List.find?_eq_none.1 none a mem)
    · intro a first
      have missing := toTerms_of_endpointKey content here known first
      exact ⟨missing, by rw [Ref.ofRecord, missing]; rfl⟩
  · intro r accepted here
    exact expands_fact_iff accepted.content here

/-- The record of an acquaintance is one of a relation without such a prop, and the record of
person 1 lacks the weight. -/
theorem expands_acquaintance :
    ofTerms (.rel .knows) (.relation (.keys (personKeys 1)) (.keys (personKeys 2))
      (.named (.ofList [("since", .int 1999)]) .empty)) registered = .ok acquaintance ∧
    acquaintance.Expands (.rel .knows) ∧
    ∃ r, ofTerms (.fact .person) (.keyed (personKeys 1)) .default = .ok r ∧
      Over (.fact .person) r ∧ FactSchema.person.id = r.schemaId ∧ ¬r.Expands (.fact .person) := by
  obtain ⟨relations, entities⟩ := expands .knows .person
  obtain ⟨r, made⟩ : ∃ r, ofTerms (.fact .person) (.keyed (personKeys 1)) .default = .ok r :=
    ⟨_, rfl⟩
  have here : FactSchema.person.id = r.schemaId := (content_of_ofTerms made).1
  refine ⟨ofTerms_acquaintance, (relations _ _ _ ofTerms_acquaintance).1 rfl, r, made,
    .terms made, here, ?_⟩
  rw [entities _ (.terms made) here]
  cases made
  decide

end Record

/-! ### A prop that is taken for a key field -/

/-- With which grade someone recommends another one. The grade has the role of a key field. -/
def RelSchema.recommends : RelSchema := { knows with
  name := "recommends"
  props := ⟨[⟨"grade", "int", some .subKey, none⟩], by decide⟩
  names_nodup := by decide +kernel
  mergePolicy := .latest
  id := _
  id_eq := rfl }

namespace Record

/-- The grade is in the record, but not among the terms. -/
theorem not_expands_recommends :
    ∃ r, ofTerms (.rel .recommends) (.keyed (.ofList
        [("sub_number", .int 1), ("obj_number", .int 2), ("grade", .int 5)])) .default = .ok r ∧
      r.props.get? "grade" = some (.int 5) ∧ ¬r.Expands (.rel .recommends) := by
  obtain ⟨r, made, held⟩ : ∃ r, ofTerms (.rel .recommends) (.keyed (.ofList
      [("sub_number", .int 1), ("obj_number", .int 2), ("grade", .int 5)])) .default = .ok r ∧
      r.props.get? "grade" = some (.int 5) := ⟨_, rfl, rfl⟩
  refine ⟨r, made, held, ?_⟩
  obtain ⟨here, content, known⟩ := content_of_ofTerms made
  obtain ⟨keys, known⟩ := Option.ne_none_iff_exists'.1 (known rfl)
  rintro ⟨values, terms, -⟩
  cases (toTerms_of_endpointKey content here known rfl).symm.trans terms

end Record

end Clausal
