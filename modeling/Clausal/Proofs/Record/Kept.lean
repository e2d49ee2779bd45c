import Clausal.Proofs.Record.Represents
import Clausal.Proofs.Record.Shapes

/-!
# Given values are kept

Main statement: `values_kept`. What a record is given by the place of a value, or for a prop, is in
the record. So is what is listed by names of key fields, unless two names stand for one key field,
with the start that marks the side and without it. Then the later name counts, and the value under
the other one is nowhere in the record (`values_dropped`).
-/

namespace Clausal

/-! ### Values in cells -/

namespace RelationContent

/-- The value in a cell. -/
def value? (c : RelationContent) : Cell → Option Value
  | .key side field => (c.keys.at side).get? field
  | .prop name => c.props.get? name

theorem puts_put : Puts value? put where
  self c p v := by
    cases p with
    | key side field =>
      rw [put, value?, keys_withKey_self]
      exact SortedMap.puts_insert.self _ field v
    | prop name => exact SortedMap.puts_insert.self _ name v
  other c p v p' ne := by
    cases p with
    | key side field =>
      cases p' with
      | key side' field' =>
        by_cases same : side = side'
        · subst same
          rw [put, value?, keys_withKey_self]
          exact SortedMap.puts_insert.other _ field v field' fun eq => ne (congrArg _ eq)
        · rw [put, value?, keys_withKey_of_ne _ _ _ same]
          rfl
      | prop name =>
        rw [put, value?, props_withKey]
        rfl
    | prop name =>
      cases p' with
      | key side' => rfl
      | prop name' =>
        exact SortedMap.puts_insert.other _ name v name' fun eq => ne (congrArg _ eq)

theorem holds_iff {c : RelationContent} {p : Cell} : c.Holds p ↔ (c.value? p).isSome = true := by
  cases p <;> exact Iff.rfl

/-- Contents with the same values in all cells are equal. -/
theorem ext_value? {c c' : RelationContent} (h : ∀ p, c.value? p = c'.value? p) : c = c' := by
  have sub : c.sub = c'.sub := SortedMap.ext_get? fun k => h (.key .sub k)
  have obj : c.obj = c'.obj := SortedMap.ext_get? fun k => h (.key .obj k)
  have props : c.props = c'.props := SortedMap.ext_get? fun k => h (.prop k)
  obtain ⟨_, _, _⟩ := c
  rw [mk.injEq]
  exact ⟨sub, obj, props⟩

/-- Of the values for all cells, each is found in its own. -/
theorem value?_contentOf {rel : RelSchema} {values : List Value} {p : Cell} {v : Value}
    (mem : (p, v) ∈ rel.cells.zip values) : (rel.contentOf values).value? p = some v := by
  have distinct : ((rel.cells.zip values).map (·.1)).Nodup :=
    (map_fst_zip_sublist _ _).nodup rel.nodup_argNames.of_map
  rw [← foldl_put_cells]
  exact puts_put.held_foldl_of_nodup distinct mem

theorem value?_contentOf_of_not_mem {rel : RelSchema} {values : List Value} {p : Cell}
    (other : p ∉ rel.cells) : (rel.contentOf values).value? p = none := by
  rw [← Option.not_isSome_iff_eq_none, ← holds_iff, ← foldl_put_cells]
  intro held
  have mem := (mem_of_holds_foldl_put held).resolve_left (not_holds_empty p)
  exact other ((map_fst_zip_sublist _ _).subset mem)

end RelationContent

/-! ### Values that terms give -/

/-- A name stands for the prop of that name, or for a key field, be it with the start that marks the
side or without it. -/
inductive Cell.GoesBy : Cell → String → Prop
  | prop {name} : GoesBy (.prop name) name
  | bare {side field} : GoesBy (.key side field) field
  | marked {side field} : GoesBy (.key side field) (side.start ++ field)

/-- The side of the endpoint that a cell is for. -/
def Cell.side? : Cell → Option Side
  | .key side _ => some side
  | .prop _ => none

def Record.value? (r : Record) : Cell → Option Value
  | .key side field => r.identity.keys?.bind fun keys => (keys.at side).get? field
  | .prop name => r.props.get? name

/-- An endpoint gives a value for a key field without a name. -/
inductive Endpoint.Gives (rel : RelSchema) (side : Side) : Endpoint → String → Value → Prop
  | record {e k v} (mem : k ∈ rel.keyFieldsOf side) (held : e.props.get? k = some v) :
    Gives rel side (.record e) k v
  | scalar {k v} (mem : k ∈ rel.keyFieldsOf side) : Gives rel side (.scalar v) k v

/-- Props are given a value. -/
inductive Props.Gives (rel : RelSchema) : Props → String → Value → Prop
  | positional {values name v} (mem : (name, v) ∈ rel.props.names.zip values) :
    Gives rel (.positional values) name v
  | inline {inline nested name v} (mem : (name, v) ∈ inline.entries) :
    Gives rel (.named inline nested) name v
  | nested {inline nested name v} (mem : (name, v) ∈ nested.entries) :
    Gives rel (.named inline nested) name v

/-- Terms give a value for a cell, by its place or as a prop. -/
inductive Terms.Gives : Schema → Terms → Cell → Value → Prop
  | fact {f values name v} (mem : (name, v) ∈ f.signature.names.zip values) :
    Gives (.fact f) (.positional values) (.prop name) v
  | relation {rel values p v} (mem : (p, v) ∈ rel.cells.zip values) :
    Gives (.rel rel) (.positional values) p v
  | sub {rel sub obj props k v} (given : Endpoint.Gives rel .sub sub k v) :
    Gives (.rel rel) (.relation sub obj props) (.key .sub k) v
  | obj {rel sub obj props k v} (given : Endpoint.Gives rel .obj obj k v) :
    Gives (.rel rel) (.relation sub obj props) (.key .obj k) v
  | props {rel sub obj props name v} (given : Props.Gives rel props name v) :
    Gives (.rel rel) (.relation sub obj props) (.prop name) v

/-- Terms have a value without a name. -/
inductive Terms.Unnamed : Terms → Value → Prop
  | positional {values v} (mem : v ∈ values) : Unnamed (.positional values) v
  | sub {v obj props} : Unnamed (.relation (.scalar v) obj props) v
  | obj {sub v props} : Unnamed (.relation sub (.scalar v) props) v
  | props {sub obj values v} (mem : v ∈ values) : Unnamed (.relation sub obj (.positional values)) v

/-- An endpoint lists values by names of key fields. -/
inductive Endpoint.Lists : Endpoint → FieldMap → Prop
  | keys {values} : Lists (.keys values) values
  | reference {id values} : Lists (.reference ⟨id, values⟩) values

/-- Terms list values by names, for all cells or for those of a side. -/
inductive Terms.Lists : Terms → Option Side → FieldMap → Prop
  | keyed {values} : Lists (.keyed values) none values
  | sub {sub obj props values} (listed : sub.Lists values) :
    Lists (.relation sub obj props) (some .sub) values
  | obj {sub obj props values} (listed : obj.Lists values) :
    Lists (.relation sub obj props) (some .obj) values

/-! ### Values in their cells -/

theorem Record.map_fst_pairsOf_sublist (fields : List String) (values : FieldMap) :
    ((pairsOf fields values).map (·.1)).Sublist fields := by
  induction fields with
  | nil => exact .slnil
  | cons field rest ih =>
    rw [pairsOf, List.filterMap_cons]
    cases values.get? field with
    | none => exact ih.cons field
    | some v => exact ih.cons_cons field

section

variable {rel : RelSchema} {mode : ResolveMode} {v : Value}

theorem Terms.get?_of_endpointGives {side : Side} {e : Endpoint} {keys : FieldMap} {k : String}
    (resolved : endpointKeys rel side mode e = .ok keys) (given : e.Gives rel side k v) :
    keys.get? k = some v := by
  cases given with
  | @record e k v mem held =>
    cases endpointKeys_record resolved
    have distinct := (Record.map_fst_pairsOf_sublist _ e.props).nodup (rel.nodup_keyFieldsOf side)
    exact (SortedMap.get?_ofList distinct).2 (Record.mem_pairsOf.2 ⟨mem, held⟩)
  | scalar mem =>
    obtain ⟨-, -, k', fields, rfl⟩ := endpointKeys_scalar resolved
    cases List.mem_singleton.1 (fields ▸ mem)
    exact SortedMap.puts_insert.self _ _ v

theorem Terms.get?_of_propsGives {props : Props} {values : FieldMap} {name : String}
    (resolved : propValues rel props = .ok values) (given : props.Gives rel name v) :
    values.get? name = some v := by
  cases given with
  | positional mem =>
    obtain ⟨-, rfl⟩ := propValues_positional resolved
    exact (SortedMap.get?_ofList (nodup_zip rel.props.names_nodup _)).2 mem
  | inline mem =>
    obtain ⟨apart, rfl⟩ := propValues_named resolved
    have held := SortedMap.get?_eq_some_iff.2 mem
    refine (SortedMap.puts_insert.held_foldl held).resolve_right ?_
    rintro ⟨v', again, -⟩
    refine apart name (List.mem_map_of_mem again) ?_
    rw [SortedMap.contains, held]
    rfl
  | @nested inline nested name v mem =>
    obtain ⟨-, rfl⟩ := propValues_named resolved
    exact SortedMap.puts_insert.held_foldl_of_nodup nested.nodup_keys mem

end

/-! ### Values under names -/

theorem Cell.goesBy_argName (p : Cell) : p.GoesBy p.argName := by
  cases p with
  | key side field => exact .marked
  | prop name => exact .prop

theorem Side.goesBy_bareName (side : Side) (name : String) :
    Cell.GoesBy (.key side (side.bareName name)) name := by
  rw [bareName]
  cases strip : Text.stripStart? side.start name with
  | none => exact .bare
  | some rest =>
    rw [Text.eq_append_of_stripStart? strip]
    exact .marked

theorem RelSchema.goesBy_of_cellOf {rel : RelSchema} {name : String} {p : Cell}
    (h : rel.cellOf name = .ok p) : p.GoesBy name := by
  have cell : rel.cellAt name = p := by rw [cellAt, h]; rfl
  rcases rel.argName_cellAt name with same | ⟨side, bare⟩
  · rw [cell] at same
    exact same ▸ p.goesBy_argName
  · rw [← cell, bare]
    exact .bare

/-- A cell has what is listed under a name, unless something is listed for it under a later name:
then it has that. -/
def FieldMap.KeptIn (values : FieldMap) (value? : Cell → Option Value) (e : String × Value)
    (p : Cell) : Prop :=
  value? p = some e.2 ∨ ∃ e' ∈ values.entries, compare e.1 e'.1 = .lt ∧ p.GoesBy e'.1 ∧
    value? p = some e'.2

section

variable {rel : RelSchema} {mode : ResolveMode} {values : FieldMap} {e : String × Value}

theorem Terms.bareKeys_of_endpointLists {side : Side} {endpoint : Endpoint} {keys : FieldMap}
    (resolved : endpointKeys rel side mode endpoint = .ok keys) (listed : endpoint.Lists values) :
    keys = side.bareKeys values := by
  cases listed with
  | keys => exact (Except.ok.inj resolved).symm
  | reference => exact endpointKeys_reference resolved

theorem RelationContent.keptIn_of_bareKeys {c : RelationContent} {side : Side}
    (bare : c.keys.at side = side.bareKeys values) (mem : e ∈ values.entries) :
    values.KeptIn c.value? e (.key side (side.bareName e.1)) := by
  obtain ⟨before, after, split, later⟩ := SortedMap.exists_split mem
  have kept := SortedMap.puts_insert.held_foldl_append
    (before.map fun e => (side.bareName e.1, e.2)) (after.map fun e => (side.bareName e.1, e.2))
    .empty (side.bareName e.1) e.2
  rw [FieldMap.KeptIn, value?, bare, Side.bareKeys, split, List.map_append, List.map_cons]
  refine kept.imp_right ?_
  rintro ⟨v', mem', last⟩
  obtain ⟨e', held, eq⟩ := List.mem_map.1 mem'
  obtain ⟨same, rfl⟩ := Prod.mk.inj eq
  exact ⟨e', List.mem_append_right _ (List.mem_cons_of_mem _ held), later e' held,
    same ▸ side.goesBy_bareName e'.1, last⟩

theorem RelationContent.keptIn_of_placeByName {c : RelationContent}
    (placed : Terms.placeByName rel .empty values.entries = .ok c) (mem : e ∈ values.entries) :
    ∃ p : Cell, p.GoesBy e.1 ∧ values.KeptIn c.value? e p := by
  rw [Terms.placeByName_eq] at placed
  obtain ⟨puts, read, rfl⟩ := map_eq_ok.1 placed
  obtain ⟨before, after, split, later⟩ := SortedMap.exists_split mem
  rw [split, List.mapM_append] at read
  obtain ⟨putsBefore, -, read⟩ := bind_eq_ok.1 read
  obtain ⟨putsFrom, readFrom, read⟩ := bind_eq_ok.1 read
  cases read
  obtain ⟨_, putsAfter, first, readAfter, rfl⟩ := mapM_cons_eq_ok.1 readFrom
  obtain ⟨p, cell, rfl⟩ := map_eq_ok.1 first
  refine ⟨p, RelSchema.goesBy_of_cellOf cell, ?_⟩
  -- a value that is replaced is replaced by that of a later entry for the same cell
  refine (puts_put.held_foldl_append putsBefore putsAfter .empty p e.2).imp_right ?_
  rintro ⟨v', mem', last⟩
  obtain ⟨e', held, made⟩ := exists_of_mem_mapM readAfter _ mem'
  obtain ⟨p', cell', eq⟩ := map_eq_ok.1 made
  cases eq
  exact ⟨e', split ▸ List.mem_append_right _ (List.mem_cons_of_mem _ held), later e' held,
    RelSchema.goesBy_of_cellOf cell', last⟩

end

/-! ### Records -/

namespace Record

variable {terms : Terms} {o : RecordOptions} {r : Record}

theorem value?_identified (r : Record) (policy : MergePolicy) :
    (r.identified policy).value? = r.value? := by
  unfold identified
  split <;> rfl

/-- The values of a relation record are those of its content. -/
theorem value?_of_ofTerms_rel {rel : RelSchema} (made : ofTerms (.rel rel) terms o = .ok r) :
    ∃ c, terms.relationContent rel o.mode = .ok c ∧ r.value? = c.value? := by
  obtain ⟨c, sub, obj, given, -, -, -, rfl⟩ := ofTerms_rel_eq_ok made
  refine ⟨c, given, ?_⟩
  rw [value?_identified]
  funext p
  cases p <;> rfl

/-- Values by position are there only if all of them are read as they are meant. -/
theorem value?_of_positional {rel : RelSchema} {values : List Value}
    (made : ofTerms (.rel rel) (.positional values) o = .ok r) :
    values.length = (Schema.rel rel).arity ∧ Shape.positional.Clear rel o.mode ∧
      r.value? = (rel.contentOf values).value? := by
  obtain ⟨c, resolved, eq⟩ := value?_of_ofTerms_rel made
  obtain ⟨checked, -⟩ := check_bind_eq_ok.1 resolved
  have count := Terms.length_of_checkArity checked
  have shaped : ofTerms (.rel rel) (Shape.positional.terms rel values) o = .ok r := made
  have clear := Shape.clear_of_ofTerms shaped
  cases (Shape.relationContent_eq count clear).symm.trans resolved
  exact ⟨count, clear, eq⟩

/-- There is a place for each value without a name. -/
theorem exists_gives_of_unnamed {s : Schema} {v : Value} (made : ofTerms s terms o = .ok r)
    (unnamed : terms.Unnamed v) : ∃ p, terms.Gives s p v := by
  cases s with
  | fact f =>
    obtain ⟨props, id, resolved, -⟩ := ofTerms_fact_eq_ok made
    cases unnamed with
    | positional mem =>
      obtain ⟨checked, -⟩ := check_bind_eq_ok.1 resolved
      have count := f.signature.length_names.trans (Terms.length_of_checkArity checked).symm
      obtain ⟨name, mem⟩ := exists_mem_zip_right count mem
      exact ⟨.prop name, .fact mem⟩
    | sub => cases resolved
    | obj => cases resolved
    | props => cases resolved
  | rel rel =>
    obtain ⟨c, resolved, -⟩ := value?_of_ofTerms_rel made
    cases unnamed with
    | positional mem =>
      have count := rel.length_cells.trans (value?_of_positional made).1.symm
      obtain ⟨p, mem⟩ := exists_mem_zip_right count mem
      exact ⟨p, .relation mem⟩
    | sub =>
      obtain ⟨-, -, k, fields, -⟩ :=
        Terms.endpointKeys_scalar (Terms.content_of_relation resolved).1
      exact ⟨.key .sub k, .sub (.scalar (fields ▸ List.mem_singleton_self k))⟩
    | obj =>
      obtain ⟨-, -, k, fields, -⟩ :=
        Terms.endpointKeys_scalar (Terms.content_of_relation resolved).2.1
      exact ⟨.key .obj k, .obj (.scalar (fields ▸ List.mem_singleton_self k))⟩
    | props mem =>
      obtain ⟨count, -⟩ := Terms.propValues_positional (Terms.content_of_relation resolved).2.2
      obtain ⟨name, mem⟩ := exists_mem_zip_right (rel.props.length_names.trans count.symm) mem
      exact ⟨.prop name, .props (.positional mem)⟩

/-- Values that are given by their places, and those of props, are in their cells. -/
theorem value?_of_gives {s : Schema} {p : Cell} {v : Value} (made : ofTerms s terms o = .ok r)
    (given : terms.Gives s p v) : r.value? p = some v := by
  cases given with
  | @fact f values name v mem =>
    obtain ⟨props, id, resolved, -, -, rfl⟩ := ofTerms_fact_eq_ok made
    obtain ⟨_, -, resolved⟩ := bind_eq_ok.1 resolved
    cases resolved
    rw [value?_identified]
    exact (SortedMap.get?_ofList (nodup_zip f.signature.names_nodup _)).2 mem
  | relation mem =>
    rw [(value?_of_positional made).2.2]
    exact RelationContent.value?_contentOf mem
  | sub given =>
    obtain ⟨c, resolved, eq⟩ := value?_of_ofTerms_rel made
    rw [eq]
    exact Terms.get?_of_endpointGives (Terms.content_of_relation resolved).1 given
  | obj given =>
    obtain ⟨c, resolved, eq⟩ := value?_of_ofTerms_rel made
    rw [eq]
    exact Terms.get?_of_endpointGives (Terms.content_of_relation resolved).2.1 given
  | props given =>
    obtain ⟨c, resolved, eq⟩ := value?_of_ofTerms_rel made
    rw [eq]
    exact Terms.get?_of_propsGives (Terms.content_of_relation resolved).2.2 given

/-- Of the values that are listed for a cell, that under the last name is there. -/
theorem keptIn_of_lists {s : Schema} {side? : Option Side} {values : FieldMap} {e : String × Value}
    (made : ofTerms s terms o = .ok r) (listed : terms.Lists side? values)
    (mem : e ∈ values.entries) :
    ∃ p : Cell, p.GoesBy e.1 ∧ (∀ side ∈ side?, p.side? = some side) ∧
      values.KeptIn r.value? e p := by
  cases s with
  | fact f =>
    obtain ⟨props, id, resolved, -, -, rfl⟩ := ofTerms_fact_eq_ok made
    cases listed with
    | keyed =>
      cases resolved
      rw [value?_identified]
      exact ⟨.prop e.1, .prop, nofun, .inl (SortedMap.get?_eq_some_iff.2 mem)⟩
    | sub => cases resolved
    | obj => cases resolved
  | rel rel =>
    obtain ⟨c, resolved, eq⟩ := value?_of_ofTerms_rel made
    rw [eq]
    cases listed with
    | keyed =>
      obtain ⟨p, named, kept⟩ := RelationContent.keptIn_of_placeByName resolved mem
      exact ⟨p, named, nofun, kept⟩
    | sub listed =>
      have bare := Terms.bareKeys_of_endpointLists (Terms.content_of_relation resolved).1 listed
      exact ⟨_, Side.goesBy_bareName .sub e.1, fun _ same => same,
        RelationContent.keptIn_of_bareKeys bare mem⟩
    | obj listed =>
      have bare := Terms.bareKeys_of_endpointLists (Terms.content_of_relation resolved).2.1 listed
      exact ⟨_, Side.goesBy_bareName .obj e.1, fun _ same => same,
        RelationContent.keptIn_of_bareKeys bare mem⟩

/-- **Given values are kept**, except where two names stand for one key field. A value without a
name has a place, and a value that is given by its place, or for a prop, is in its cell. A value
that is listed under a name is in a cell that goes by this name, or else something is listed there
under a later name of the same cell. -/
theorem values_kept {s : Schema} (made : ofTerms s terms o = .ok r) :
    (∀ v, terms.Unnamed v → ∃ p, terms.Gives s p v) ∧
    (∀ p v, terms.Gives s p v → r.value? p = some v) ∧
    ∀ side? values, terms.Lists side? values → ∀ e ∈ values.entries,
      ∃ p : Cell, p.GoesBy e.1 ∧ (∀ side ∈ side?, p.side? = some side) ∧
        values.KeptIn r.value? e p :=
  ⟨fun _ unnamed => exists_gives_of_unnamed made unnamed,
    fun _ _ given => value?_of_gives made given,
    fun _ _ listed _ mem => keptIn_of_lists made listed mem⟩

/-- The number of the one who knows, under two names. -/
def twoNumbers : FieldMap := .ofList [("number", .int 1), ("sub_number", .int 2)]

/-- Someone knows number 3 since 1999. -/
def twiceNumbered : Terms :=
  .relation (.keys twoNumbers) (.keys (personKeys 3)) (.positional [.int 1999])

theorem values_kept_twiceNumbered :
    ∃ r, ofTerms (.rel .knows) twiceNumbered .default = .ok r ∧
      (∀ v, twiceNumbered.Unnamed v → ∃ p, twiceNumbered.Gives (.rel .knows) p v) ∧
      (∀ p v, twiceNumbered.Gives (.rel .knows) p v → r.value? p = some v) ∧
      ∀ side? values, twiceNumbered.Lists side? values → ∀ e ∈ values.entries,
        ∃ p : Cell, p.GoesBy e.1 ∧ (∀ side ∈ side?, p.side? = some side) ∧
          values.KeptIn r.value? e p := by
  obtain ⟨r, made⟩ : ∃ r, ofTerms (.rel .knows) twiceNumbered .default = .ok r := ⟨_, rfl⟩
  exact ⟨r, made, values_kept made⟩

/-- The first one of the two numbers is not in the record. -/
theorem values_dropped :
    ∃ r, ofTerms (.rel .knows) twiceNumbered .default = .ok r ∧
      twiceNumbered.Lists (some .sub) twoNumbers ∧ ("number", .int 1) ∈ twoNumbers.entries ∧
      ∀ p, r.value? p ≠ some (.int 1) := by
  obtain ⟨r, made⟩ : ∃ r, ofTerms (.rel .knows) twiceNumbered .default = .ok r := ⟨_, rfl⟩
  refine ⟨r, made, .sub .keys, .head _, fun p => ?_⟩
  obtain ⟨c, resolved, eq⟩ := value?_of_ofTerms_rel made
  cases resolved
  rw [eq]
  have held {m : FieldMap} {k : String} (h : m.get? k = some (.int 1)) : .int 1 ∈ m.values :=
    SortedMap.mem_values_of_get? h
  cases p with
  | key side field =>
    cases side with
    | sub => exact fun h => absurd (held h) (by decide)
    | obj => exact fun h => absurd (held h) (by decide)
  | prop name => exact fun h => absurd (held h) (by decide)

end Record

end Clausal
