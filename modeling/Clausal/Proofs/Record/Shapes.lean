import Clausal.Proofs.Record.Cells

/-!
# Shapes of content

Main statement: `Record.shapes_agree`. The values of a relation record can be given in several
shapes, which all come to the same content (`Shape.relationContent_eq`) where the names and roles of
the schema are read as they are meant (`Shape.Clear`). Where they are not, there is no record. That
names are misread shows in their lengths: they add up to another sum than those of the names for all
cells do, so that some cell has no value (`sum_map_of_covers`).
-/

namespace Clausal

/-! ### Shapes -/

/-- How the values of an endpoint are given. -/
inductive EndpointShape
  /-- By key fields, with the start that marks the side at some of them. -/
  | keys (marked : String → Bool)
  /-- By key fields in a reference to an entity. -/
  | reference (marked : String → Bool)
  /-- As the value of the only key field. -/
  | scalar

/-- How the values of props are given. -/
inductive PropsShape
  | positional
  /-- By name, some of them inline. -/
  | named (inline : String → Bool)

/-- How the values of a relation record are given. -/
inductive Shape
  | positional
  /-- By the names of the arguments. -/
  | keyed
  | relation (sub obj : EndpointShape) (props : PropsShape)

/-- A key field of a side, with the start that marks the side if it is to have it. -/
def Side.spell (side : Side) (marked : String → Bool) (field : String) : String :=
  if marked field then side.start ++ field else field

/-- The values in the places of a side, by their key fields. -/
def RelSchema.keyValues (rel : RelSchema) (values : List Value) (side : Side)
    (marked : String → Bool) : FieldMap :=
  .ofList (((rel.keyFieldsOf side).map (side.spell marked)).zip (rel.slots values side))

/-- The endpoint of a shape that gives the values in the places of a side. A single value stands for
the first one of them, whatever it is where there is none. -/
def EndpointShape.endpoint (rel : RelSchema) (values : List Value) (side : Side) :
    EndpointShape → Endpoint
  | .keys marked => .keys (rel.keyValues values side marked)
  | .reference marked =>
    .reference ⟨(rel.endpoint side).id, rel.keyValues values side marked⟩
  | .scalar => .scalar ((rel.slots values side).headD (.bool false))

/-- The props of a shape that gives the values in the places of the props. -/
def PropsShape.given (rel : RelSchema) (values : List Value) : PropsShape → Props
  | .positional => .positional (rel.propSlots values)
  | .named inline =>
    let pairs := rel.props.names.zip (rel.propSlots values)
    .named (.ofList (pairs.filter fun e => inline e.1))
      (.ofList (pairs.filter fun e => !inline e.1))

/-- The terms of a shape that gives one value for each argument. -/
def Shape.terms (rel : RelSchema) (values : List Value) : Shape → Terms
  | .positional => .positional values
  | .keyed => .keyed (.ofList (rel.signature.names.zip values))
  | .relation sub obj props => .relation (sub.endpoint rel values .sub)
      (obj.endpoint rel values .obj) (props.given rel values)

/-- The names of key fields are read as they are meant: one without the start that marks the side
does not start so itself. A single value can only be meant for the only key field. -/
def EndpointShape.Clear (rel : RelSchema) (mode : ResolveMode) (side : Side) :
    EndpointShape → Prop
  | .keys marked | .reference marked =>
    ∀ k ∈ rel.keyFieldsOf side, marked k = false → Text.stripStart? side.start k = none
  | .scalar => mode = .heuristic ∧ rel.subKeyFields.length = 1 ∧ rel.objKeyFields.length = 1

/-- Values are read as they are meant: by position if no prop has the role of a side, and by the
names of arguments if none of those for key fields is itself named like a key field. -/
def Shape.Clear (rel : RelSchema) (mode : ResolveMode) : Shape → Prop
  | .positional => ∀ a ∈ rel.props.args, ∀ side : Side, a.role ≠ some side.role
  | .keyed => rel.KeysApart
  | .relation sub obj _ => sub.Clear rel mode .sub ∧ obj.Clear rel mode .obj

/-! ### Clear shapes come to the same content -/

section

variable {rel : RelSchema} {values : List Value} {mode : ResolveMode}

theorem map_fst_zip_sublist {α β : Type} (xs : List α) (ys : List β) :
    ((xs.zip ys).map (·.1)).Sublist xs := by
  induction xs generalizing ys with
  | nil => exact .slnil
  | cons x rest ih =>
    cases ys with
    | nil => exact List.nil_sublist _
    | cons y ys => exact (ih ys).cons_cons x

theorem nodup_zip {fields : List String} (distinct : fields.Nodup) (vs : List Value) :
    ((fields.zip vs).map (·.1)).Nodup := (map_fst_zip_sublist fields vs).nodup distinct

theorem exists_mem_zip_left {α β : Type} {xs : List α} {ys : List β}
    (length : xs.length = ys.length) {x : α} (mem : x ∈ xs) : ∃ y, (x, y) ∈ xs.zip ys := by
  rw [← List.map_fst_zip length.le] at mem
  obtain ⟨⟨x, y⟩, paired, rfl⟩ := List.mem_map.1 mem
  exact ⟨y, paired⟩

theorem exists_mem_zip_right {α β : Type} {xs : List α} {ys : List β}
    (length : xs.length = ys.length) {y : β} (mem : y ∈ ys) : ∃ x, (x, y) ∈ xs.zip ys := by
  rw [← List.map_snd_zip length.ge] at mem
  obtain ⟨⟨x, y⟩, paired, rfl⟩ := List.mem_map.1 mem
  exact ⟨x, paired⟩

theorem Side.bareName_spell {side : Side} {marked : String → Bool} {k : String}
    (clear : marked k = false → Text.stripStart? side.start k = none) :
    side.bareName (side.spell marked k) = k := by
  unfold spell
  split
  case isTrue => exact side.bareName_start k
  case isFalse bare =>
    rw [bareName, clear (Bool.not_eq_true _ ▸ bare)]
    rfl

/-- Key fields that are read as they are meant have the values that are given for them. -/
theorem bareKeys_keyValues {side : Side} {marked : String → Bool}
    (clear : ∀ k ∈ rel.keyFieldsOf side, marked k = false →
      Text.stripStart? side.start k = none) :
    side.bareKeys (rel.keyValues values side marked) =
      .ofList ((rel.keyFieldsOf side).zip (rel.slots values side)) := by
  have read : ((rel.keyFieldsOf side).map (side.spell marked)).map side.bareName =
      rel.keyFieldsOf side := by
    rw [List.map_map]
    exact (List.map_congr_left fun k mem => Side.bareName_spell (clear k mem)).trans (List.map_id _)
  have distinct := rel.nodup_keyFieldsOf side
  have spelled : ((rel.keyFieldsOf side).map (side.spell marked)).Nodup := by
    refine .of_map side.bareName ?_
    rwa [read]
  -- the bare names differ, so the order of the given ones does not matter
  have perm := (SortedMap.perm_ofList (nodup_zip spelled (rel.slots values side))).map
    fun e => (side.bareName e.1, e.2)
  have same : (((rel.keyFieldsOf side).map (side.spell marked)).zip (rel.slots values side)).map
      (fun e => (side.bareName e.1, e.2)) = (rel.keyFieldsOf side).zip (rel.slots values side) := by
    conv_rhs => rw [← read, List.zip_map_left]
    rfl
  rw [same] at perm
  exact SortedMap.ofList_perm perm ((nodup_zip distinct _).perm (perm.map _).symm)

/-- There is a value for each key field and each prop. -/
theorem length_slots (count : values.length = (Schema.rel rel).arity) :
    (∀ side, (rel.slots values side).length = (rel.keyFieldsOf side).length) ∧
      (rel.propSlots values).length = rel.props.length := by
  have arity : (Schema.rel rel).arity = rel.cells.length := rel.length_cells.symm
  rw [arity, RelSchema.cells, List.length_append, List.length_append, List.length_map,
    List.length_map, List.length_map, rel.props.length_names] at count
  constructor
  · intro side
    cases side <;> simp [RelSchema.slots, RelSchema.keyFieldsOf] <;> omega
  · simp [RelSchema.propSlots, RelSchema.keyFieldsOf]
    omega

theorem EndpointShape.endpointKeys_eq {side : Side} {shape : EndpointShape}
    (count : (rel.slots values side).length = (rel.keyFieldsOf side).length)
    (clear : shape.Clear rel mode side) :
    Terms.endpointKeys rel side mode (shape.endpoint rel values side) =
      .ok (.ofList ((rel.keyFieldsOf side).zip (rel.slots values side))) := by
  cases shape with
  | keys marked => exact congrArg Except.ok (bareKeys_keyValues clear)
  | reference marked =>
    exact (if_neg (not_not.2 rfl)).trans (congrArg Except.ok (bareKeys_keyValues clear))
  | scalar =>
    obtain ⟨rfl, single⟩ := clear
    have one := RelSchema.length_keyFieldsOf single side
    obtain ⟨k, fields⟩ := List.length_eq_one_iff.1 one
    obtain ⟨v, held⟩ := List.length_eq_one_iff.1 (count.trans one)
    rw [endpoint, held, fields]
    unfold Terms.endpointKeys
    rw [fields]
    exact if_pos single

theorem PropsShape.propValues_eq (shape : PropsShape)
    (count : (rel.propSlots values).length = rel.props.length) :
    Terms.propValues rel (shape.given rel values) =
      .ok (.ofList (rel.props.names.zip (rel.propSlots values))) := by
  cases shape with
  | positional => exact if_pos count
  | named inline =>
    have perm := List.filter_append_perm (fun e => inline e.1)
      (rel.props.names.zip (rel.propSlots values))
    have distinct := (nodup_zip rel.props.names_nodup (rel.propSlots values)).perm
      (perm.map (·.1)).symm
    have apart := (List.nodup_append.1 (List.map_append ▸ distinct)).2.2
    rw [given, Terms.propValues, if_pos, SortedMap.union_ofList distinct,
      SortedMap.ofList_perm perm distinct]
    refine List.filter_eq_nil_iff.2 fun k here there => ?_
    exact apart k (SortedMap.mem_keys_ofList.1 (SortedMap.mem_keys_iff.2 there)) k
      (SortedMap.mem_keys_ofList.1 here) rfl

/-- Values that are read as they are meant come to the same content in every shape. -/
theorem Shape.relationContent_eq {shape : Shape}
    (count : values.length = (Schema.rel rel).arity) (clear : shape.Clear rel mode) :
    (shape.terms rel values).relationContent rel mode = .ok (rel.contentOf values) := by
  cases shape with
  | positional =>
    have zipped : (rel.signature.args.zip values).map (fun q => (q.1.cell, q.2)) =
        rel.cells.zip values := by
      rw [← RelSchema.map_cell_args clear, List.zip_map_left]
      rfl
    rw [terms, Terms.relationContent, Terms.checkArity, if_pos count, ok_bind,
      Terms.placeByRole_eq, zipped, RelationContent.foldl_put_cells]
    rfl
  | keyed =>
    have read : (rel.signature.names.zip values).mapM (fun e => (·, e.2) <$> rel.cellOf e.1) =
        .ok (rel.cells.zip values) := by
      rw [← RelSchema.argNames_cells, List.zip_map_left]
      refine (mapM_map_eq_ok (h := fun q => q) fun q mem => ?_).trans (by rw [List.map_id'])
      show (·, q.2) <$> rel.cellOf q.1.argName = .ok q
      rw [RelSchema.cellOf_argName clear q.1 (List.of_mem_zip mem).1]
      rfl
    have named : rel.signature.names.Nodup := rel.signature.names_nodup
    have perm := SortedMap.perm_ofList (nodup_zip named values)
    obtain ⟨placed, read, order⟩ := exists_mapM_of_perm perm.symm read
    have distinct : ((rel.cells.zip values).map (·.1)).Nodup :=
      (map_fst_zip_sublist _ _).nodup rel.nodup_argNames.of_map
    rw [terms, Terms.relationContent, Terms.placeByName_eq, read,
      ← RelationContent.foldl_put_cells, RelationContent.foldl_put_perm order distinct]
    rfl
  | relation sub obj props =>
    obtain ⟨slots, propSlots⟩ := length_slots count
    rw [terms, Terms.relationContent, sub.endpointKeys_eq (slots .sub) clear.1,
      obj.endpointKeys_eq (slots .obj) clear.2, props.propValues_eq propSlots]
    rfl

/-! ### What is not clear makes no record -/

/-- When every item of a list is an image of another one, images weigh as much together. -/
theorem sum_map_of_covers {α : Type} {l : List α} {g : α → α} (weight : α → ℕ)
    (distinct : l.Nodup) (covers : l ⊆ l.map g) :
    (l.map fun x => weight (g x)).sum = (l.map weight).sum := by
  have perm := (List.subperm_of_subset distinct covers).perm_of_length_le (List.length_map g).le
  have sum := (perm.map weight).sum_eq
  rw [List.map_map] at sum
  exact sum.symm

theorem Text.eq_append_of_stripStart? {start s rest : String}
    (h : stripStart? start s = some rest) : s = start ++ rest := by
  unfold stripStart? at h
  split at h
  case isFalse => cases h
  case isTrue starts =>
    cases h
    rw [← String.toList_inj, String.toList_append, String.toList_ofList, ← String.length_toList]
    exact (List.prefix_iff_eq_append.1 (List.isPrefixOf_iff_prefix.1 starts)).symm

theorem Side.length_start (side : Side) : side.start.length = 4 := by
  cases side <;> rfl

theorem Side.length_of_stripStart? {side : Side} {name rest : String}
    (h : Text.stripStart? side.start name = some rest) : name.length = 4 + rest.length := by
  rw [Text.eq_append_of_stripStart? h, String.length_append, side.length_start]

/-- A key field that is given without the start that marks the side is shortened if it starts so. -/
theorem Side.length_bareName_spell (side : Side) (marked : String → Bool) (k : String) :
    (side.bareName (side.spell marked k)).length ≤ k.length ∧
      ((side.bareName (side.spell marked k)).length = k.length → marked k = false →
        Text.stripStart? side.start k = none) := by
  cases h : marked k with
  | true =>
    rw [Side.bareName_spell (fun bare => Bool.noConfusion (h.symm.trans bare))]
    exact ⟨le_rfl, nofun⟩
  | false =>
    have bare : side.spell marked k = k := if_neg (Bool.not_eq_true _ ▸ h)
    rw [bare, Side.bareName]
    cases strip : Text.stripStart? side.start k with
    | none => exact ⟨le_rfl, fun _ _ => rfl⟩
    | some rest =>
      have shorter := Side.length_of_stripStart? strip
      exact ⟨by rw [Option.getD_some]; omega, fun same => by rw [Option.getD_some] at same; omega⟩

/-- When the values of key fields go to all of them, each is read as it is meant. -/
theorem unmarked_of_complete {side : Side} {marked : String → Bool}
    (complete : ∀ k ∈ rel.keyFieldsOf side,
      (side.bareKeys (rel.keyValues values side marked)).contains k = true) :
    ∀ k ∈ rel.keyFieldsOf side, marked k = false → Text.stripStart? side.start k = none := by
  have covers : rel.keyFieldsOf side ⊆
      (rel.keyFieldsOf side).map fun k => side.bareName (side.spell marked k) := by
    intro k mem
    have key := SortedMap.mem_keys_ofList.1 (SortedMap.mem_keys_iff.2 (complete k mem))
    rw [List.map_map] at key
    obtain ⟨e, held, rfl⟩ := List.mem_map.1 key
    have named := (List.of_mem_zip (SortedMap.mem_of_mem_ofList held)).1
    obtain ⟨k', mem', spelled⟩ := List.mem_map.1 named
    exact List.mem_map.2 ⟨k', mem', congrArg side.bareName spelled⟩
  -- stripping only shortens names, and names that cover the key fields cannot be shorter
  have weights := sum_map_of_covers String.length (rel.nodup_keyFieldsOf side) covers
  intro k mem
  refine (side.length_bareName_spell marked k).2 ?_
  by_contra differ
  refine absurd weights (ne_of_lt (List.sum_lt_sum _ _
    (fun k _ => (side.length_bareName_spell marked k).1) ⟨k, mem, ?_⟩))
  exact lt_of_le_of_ne (side.length_bareName_spell marked k).1 differ

theorem EndpointShape.clear_of_complete {side : Side} {shape : EndpointShape} {keys : FieldMap}
    (given : Terms.endpointKeys rel side mode (shape.endpoint rel values side) = .ok keys)
    (complete : ∀ k ∈ rel.keyFieldsOf side, keys.contains k = true) :
    shape.Clear rel mode side := by
  cases shape with
  | keys marked =>
    cases given
    exact unmarked_of_complete complete
  | reference marked =>
    have same : ¬ (rel.endpoint side).id ≠ (rel.endpoint side).id := not_not.2 rfl
    cases (if_neg same).symm.trans given
    exact unmarked_of_complete complete
  | scalar =>
    obtain ⟨heuristic, single, -⟩ := Terms.endpointKeys_scalar given
    exact ⟨heuristic, single⟩

/-- The cell that goes by a name, also if the name is ambiguous. -/
def RelSchema.cellAt (rel : RelSchema) (name : String) : Cell :=
  (rel.cellOf name).toOption.getD (.key .sub name)

theorem RelSchema.eq_start_append_of_markedKey? {side : Side} {name key : String}
    (h : Terms.markedKey? rel side name = some key) : side.start ++ key = name :=
  (Text.eq_append_of_stripStart? (Option.filter_eq_some_iff.1 h).1).symm

/-- The argument for the cell that goes by a name has this name, unless a key field has it. -/
theorem RelSchema.argName_cellAt (rel : RelSchema) (name : String) :
    (rel.cellAt name).argName = name ∨ ∃ side, rel.cellAt name = .key side name := by
  unfold cellAt cellOf
  dsimp only
  split
  · exact .inl rfl
  split
  · exact .inr ⟨.sub, rfl⟩
  split
  · exact .inr ⟨.sub, rfl⟩
  split
  · exact .inr ⟨.obj, rfl⟩
  cases sub : Terms.markedKey? rel .sub name with
  | some key => exact .inl (eq_start_append_of_markedKey? sub)
  | none =>
    cases obj : Terms.markedKey? rel .obj name with
    | some key => exact .inl (eq_start_append_of_markedKey? obj)
    | none => exact .inl rfl

theorem RelSchema.cellAt_of_mem_keyFields {name : String} {side : Side}
    (unnamed : name ∉ rel.props.names) (mem : name ∈ rel.keyFieldsOf side) :
    ∃ side', rel.cellAt name = .key side' name := by
  have unnamed : ¬(rel.props.find? name).isSome = true := Signature.isSome_find?_iff.not.2 unnamed
  unfold cellAt cellOf
  dsimp only
  rw [if_neg unnamed]
  split
  · exact ⟨.sub, rfl⟩
  split
  · exact ⟨.sub, rfl⟩
  split
  · exact ⟨.obj, rfl⟩
  case isFalse sub obj =>
    cases side with
    | sub => exact absurd (List.contains_iff_mem.2 mem) sub
    | obj => exact absurd (List.contains_iff_mem.2 mem) obj

theorem RelSchema.length_argName_cellAt (rel : RelSchema) (name : String) :
    name.length ≤ (rel.cellAt name).argName.length := by
  rcases rel.argName_cellAt name with same | ⟨side, longer⟩
  · rw [same]
  · rw [longer, Cell.argName, String.length_append]
    omega

/-- When values by the names of arguments go to all cells, no name stands for another cell. -/
theorem keysApart_of_complete {c : RelationContent}
    (given : (Terms.keyed (.ofList (rel.signature.names.zip values))).relationContent rel mode =
      .ok c)
    (complete : ∀ p ∈ rel.cells, c.Holds p) : rel.KeysApart := by
  rw [Terms.relationContent, Terms.placeByName_eq] at given
  obtain ⟨placed, read, rfl⟩ := map_eq_ok.1 given
  have covers : rel.cells ⊆ rel.cells.map fun p => rel.cellAt p.argName := by
    intro p mem
    have mem := (RelationContent.mem_of_holds_foldl_put (complete p mem)).resolve_left
      (RelationContent.not_holds_empty p)
    obtain ⟨q, hq, rfl⟩ := List.mem_map.1 mem
    obtain ⟨e, held, made⟩ := exists_of_mem_mapM read q hq
    obtain ⟨p, found, rfl⟩ := map_eq_ok.1 made
    have named := (List.of_mem_zip (SortedMap.mem_of_mem_ofList held)).1
    rw [← rel.argNames_cells] at named
    obtain ⟨p', mem', name⟩ := List.mem_map.1 named
    refine List.mem_map.2 ⟨p', mem', ?_⟩
    rw [name, RelSchema.cellAt, found]
    rfl
  -- as for the keys of a side: a name never stands for a longer one
  have weights := sum_map_of_covers (fun p => p.argName.length)
    (List.Nodup.of_map _ rel.nodup_argNames) covers
  intro side k mem side' taken
  obtain ⟨side'', cell⟩ := RelSchema.cellAt_of_mem_keyFields
    (RelSchema.start_append_not_mem_props mem) taken
  refine absurd weights.symm (ne_of_lt (List.sum_lt_sum _ _
    (fun p _ => rel.length_argName_cellAt p.argName)
    ⟨.key side k, RelSchema.key_mem_cells.2 mem, ?_⟩))
  show (side.start ++ k).length < (rel.cellAt (side.start ++ k)).argName.length
  rw [cell, Cell.argName, String.length_append side''.start, side''.length_start]
  omega

/-- Only values that are read as they are meant make a record. -/
theorem Shape.clear_of_ofTerms {shape : Shape} {o : RecordOptions} {r : Record}
    (made : Record.ofTerms (.rel rel) (shape.terms rel values) o = .ok r) :
    shape.Clear rel o.mode := by
  obtain ⟨c, _, _, given, checked, -⟩ := Record.ofTerms_rel_eq_ok made
  have complete (side : Side) : ∀ k ∈ rel.keyFieldsOf side, (c.keys.at side).contains k = true := by
    obtain ⟨c', _, given', -, -, -, identifies⟩ := Record.identifies_of_relation made side
    cases given.symm.trans given'
    exact identifies.complete
  cases shape with
  | positional =>
    obtain ⟨-, -, given⟩ := bind_eq_ok.1 given
    cases given
    intro a mem side
    exact Terms.role_ne_of_checkRelProps checked side a mem
  | keyed =>
    refine keysApart_of_complete given fun p mem => ?_
    cases p with
    | key side k => exact complete side k (RelSchema.key_mem_cells.1 mem)
    | prop name =>
      exact Terms.contains_of_checkRelProps checked name (RelSchema.prop_mem_cells.1 mem)
  | relation sub obj props =>
    obtain ⟨subject, object, -⟩ := Terms.content_of_relation given
    exact ⟨sub.clear_of_complete subject (complete .sub),
      obj.clear_of_complete object (complete .obj)⟩

end

namespace Record

/-- **The shapes agree where they are clear.** One value for each argument of a relation gives the
same record, or the same error, in all shapes in which the values are read as they are meant. In
the other shapes the values never give a record. -/
theorem shapes_agree {rel : RelSchema} {values : List Value}
    (count : values.length = (Schema.rel rel).arity) (o : RecordOptions) :
    (∀ shape shape' : Shape, shape.Clear rel o.mode → shape'.Clear rel o.mode →
      ofTerms (.rel rel) (shape.terms rel values) o =
        ofTerms (.rel rel) (shape'.terms rel values) o) ∧
    ∀ (shape : Shape) (r : Record), ofTerms (.rel rel) (shape.terms rel values) o = .ok r →
      shape.Clear rel o.mode := by
  refine ⟨fun shape shape' clear clear' => ?_, fun shape r made => shape.clear_of_ofTerms made⟩
  rw [ofTerms, ofTerms, shape.relationContent_eq count clear,
    shape'.relationContent_eq count clear']

theorem shapes_agree_acquaintance :
    [Value.int 1, .int 2, .int 1999].length = (Schema.rel .knows).arity ∧
    ofTerms (.rel .knows) (.positional [.int 1, .int 2, .int 1999]) registered =
      .ok acquaintance ∧
    ofTerms (.rel .knows) (.keyed (.ofList
      [("sub_number", .int 1), ("obj_number", .int 2), ("since", .int 1999)])) registered =
        .ok acquaintance ∧
    ofTerms (.rel .knows) (.relation (.keys (.ofList [("number", .int 1)]))
      (.reference ⟨FactSchema.person.id, .ofList [("obj_number", .int 2)]⟩)
      (.named .empty (.ofList [("since", .int 1999)]))) registered = .ok acquaintance := by
  have count : [Value.int 1, .int 2, .int 1999].length = (Schema.rel .knows).arity := rfl
  have listed : ofTerms (.rel .knows) (.positional [.int 1, .int 2, .int 1999]) registered =
      .ok acquaintance := rfl
  obtain ⟨agree, -⟩ := shapes_agree count registered
  have plain : Shape.positional.Clear .knows registered.mode := by
    intro a mem side
    cases List.mem_singleton.1 mem
    exact nofun
  have apart : Shape.keyed.Clear .knows registered.mode := by
    intro side k mem side'
    cases side <;> cases side' <;> cases List.mem_singleton.1 mem <;> decide
  have unmarked : (Shape.relation (.keys fun _ => false) (.reference fun _ => true)
      (.named fun _ => false)).Clear .knows registered.mode := by
    refine ⟨fun k mem _ => ?_, fun _ _ => nofun⟩
    cases List.mem_singleton.1 mem
    decide
  refine ⟨count, listed, ?_, ?_⟩
  · rw [← listed]
    exact agree .keyed .positional apart plain
  · rw [← listed]
    exact agree _ .positional unmarked plain

end Record

/-! ### A key field that starts like a mark -/

/-- Ledgers, which are known by the number of an account below another one. -/
def FactSchema.ledger : FactSchema where
  name := "ledger"
  signature := ⟨[⟨"sub_account", "int", some .key, none⟩], by decide⟩
  keyFields := ["sub_account"]
  keyFields_subset := by decide
  description := none
  mergePolicy := .latest
  id := _
  id_eq := rfl

/-- Who keeps a ledger. -/
def RelSchema.keptBy : RelSchema where
  name := "kept_by"
  sub := .ledger
  obj := .person
  subKeyFields := ["sub_account"]
  subKeyFields_subset := by decide
  objKeyFields := ["number"]
  objKeyFields_subset := knows.objKeyFields_subset
  props := ⟨[], List.nodup_nil⟩
  names_nodup := by decide +kernel
  description := none
  mergePolicy := .latest
  id := _
  id_eq := rfl

/-- Two values make a record by position and by the names of the arguments. By the names of the key
fields they do not, since the start of `sub_account` is taken for the mark of the side. -/
theorem Record.shapes_disagree :
    (Schema.rel .keptBy).arity = 2 ∧
    (∃ r, ofTerms (.rel .keptBy) (.positional [.int 1, .int 2]) .default = .ok r ∧
      ofTerms (.rel .keptBy) (.keyed (.ofList
        [("sub_sub_account", .int 1), ("obj_number", .int 2)])) .default = .ok r) ∧
    ofTerms (.rel .keptBy) (.relation (.keys (.ofList [("sub_account", .int 1)]))
      (.keys (.ofList [("number", .int 2)])) (.positional [])) .default =
        .error (.invalidEndpoint "kept_by" .sub (.notKeyField "account")) := by
  refine ⟨rfl, ⟨_, rfl, rfl⟩, rfl⟩

end Clausal
