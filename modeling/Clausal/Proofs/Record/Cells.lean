import Clausal.Proofs.Record.Joining

/-!
# Cells for the values of a relation

The values of a relation record go to cells: the key fields of both sides and the props. Flat terms
say by the role or by the name of an argument which cell it is (`Terms.placeByRole_eq`,
`Terms.placeByName_eq`), and it does not count in which order different cells get their values
(`RelationContent.foldl_put_perm`).
-/

namespace Clausal

/-! ### Cells for values -/

/-- A cell for a value in a relation record. -/
inductive Cell
  | key (side : Side) (field : String)
  | prop (name : String)

def Cell.argName : Cell → String
  | .key side field => side.start ++ field
  | .prop name => name

/-- The cell that goes by the role of an argument. -/
def Arg.cell (a : Arg) : Cell :=
  match a.role with
  | some .subKey => .key .sub (Side.sub.bareName a.name)
  | some .objKey => .key .obj (Side.obj.bareName a.name)
  | _ => .prop a.name

theorem Arg.cell_key {a : Arg} {side : Side} (role : a.role = some side.role) :
    a.cell = .key side (side.bareName a.name) := by
  cases side <;> (rw [cell, role]; rfl)

theorem Arg.cell_prop {a : Arg} (plain : ∀ side : Side, a.role ≠ some side.role) :
    a.cell = .prop a.name := by
  unfold cell
  split
  case h_1 role => exact absurd role (plain .sub)
  case h_2 role => exact absurd role (plain .obj)
  case h_3 => rfl

namespace RelSchema

/-- The cells of a record, in the order of the arguments. -/
def cells (rel : RelSchema) : List Cell :=
  rel.subKeyFields.map (.key .sub) ++ (rel.objKeyFields.map (.key .obj) ++
    rel.props.names.map .prop)

/-- The cell that goes by a name. -/
def cellOf (rel : RelSchema) (name : String) : Except SchemaError Cell :=
  let isSub := rel.subKeyFields.contains name
  let isObj := rel.objKeyFields.contains name
  if (rel.props.find? name).isSome then .ok (.prop name)
  else if isSub && isObj then .error (.ambiguousEndpointKey rel.name name)
  else if isSub then .ok (.key .sub name)
  else if isObj then .ok (.key .obj name)
  else match Terms.markedKey? rel .sub name, Terms.markedKey? rel .obj name with
    | some key, _ => .ok (.key .sub key)
    | none, some key => .ok (.key .obj key)
    | none, none => .ok (.prop name)

end RelSchema

namespace RelationContent

/-- The content with a value in a cell. -/
def put (c : RelationContent) (q : Cell × Value) : RelationContent :=
  match q.1 with
  | .key side field => c.withKey side field q.2
  | .prop name => c.withProp name q.2

theorem put_comm {q q' : Cell × Value} (ne : q.1 ≠ q'.1) (c : RelationContent) :
    (c.put q).put q' = (c.put q').put q := by
  obtain ⟨cell, v⟩ := q
  obtain ⟨cell', v'⟩ := q'
  cases cell with
  | key side field =>
    cases cell' with
    | key side' field' =>
      by_cases same : side = side'
      · subst same
        have apart : field ≠ field' := fun eq => ne (congrArg (Cell.key side) eq)
        cases side <;>
          simp only [put, withKey, SortedMap.insert_comm _ apart]
      · cases side <;> cases side' <;> first | rfl | exact absurd rfl same
    | prop => cases side <;> rfl
  | prop name =>
    cases cell' with
    | key side' => cases side' <;> rfl
    | prop name' =>
      have apart : name ≠ name' := fun eq => ne (congrArg Cell.prop eq)
      simp only [put, withProp, SortedMap.insert_comm _ apart]

/-- Values for different cells can be put there in any order. -/
theorem foldl_put_perm {l l' : List (Cell × Value)} (perm : l.Perm l')
    (distinct : (l.map (·.1)).Nodup) (c : RelationContent) : l.foldl put c = l'.foldl put c := by
  refine perm.foldl_eq' (fun q mem q' mem' c => ?_) c
  by_cases same : q.1 = q'.1
  · rw [List.inj_on_of_nodup_map distinct mem mem' same]
  · exact put_comm same c

/-- There is a value in a cell. -/
def Holds (c : RelationContent) : Cell → Prop
  | .key side field => (c.keys.at side).contains field = true
  | .prop name => c.props.contains name = true

theorem not_holds_empty (p : Cell) : ¬empty.Holds p := by
  cases p with
  | key side => cases side <;> exact nofun
  | prop => exact nofun

theorem holds_put {c : RelationContent} {q : Cell × Value} {p : Cell} (h : (c.put q).Holds p) :
    p = q.1 ∨ c.Holds p := by
  obtain ⟨cell, v⟩ := q
  cases cell with
  | key side field =>
    cases p with
    | key side' field' =>
      by_cases same : side = side'
      · subst same
        rw [Holds, put, keys_withKey_self, SortedMap.contains_insert] at h
        exact h.imp_left (congrArg _)
      · rw [Holds, put, keys_withKey_of_ne _ _ _ same] at h
        exact .inr h
    | prop name =>
      rw [Holds, put, props_withKey] at h
      exact .inr h
  | prop name =>
    cases p with
    | key side => exact .inr h
    | prop name' =>
      have h : (c.props.insert name v).contains name' = true := h
      rw [SortedMap.contains_insert] at h
      exact h.imp_left (congrArg _)

theorem mem_of_holds_foldl_put {c : RelationContent} {l : List (Cell × Value)} {p : Cell}
    (h : (l.foldl put c).Holds p) : c.Holds p ∨ p ∈ l.map (·.1) := by
  induction l generalizing c with
  | nil => exact .inl h
  | cons q rest ih =>
    rcases ih h with held | later
    · rcases holds_put held with rfl | held
      · exact .inr List.mem_cons_self
      · exact .inl held
    · exact .inr (List.mem_cons_of_mem _ later)

end RelationContent

namespace Terms

open RelationContent (put)

theorem placeByRole_eq (c : RelationContent) (l : List (Arg × Value)) :
    placeByRole c l = (l.map fun q => (q.1.cell, q.2)).foldl put c := by
  induction l generalizing c with
  | nil => rfl
  | cons q rest ih =>
    rw [List.map_cons, List.foldl_cons]
    by_cases key : ∃ side : Side, q.1.role = some side.role
    · obtain ⟨side, role⟩ := key
      rw [placeByRole_cons_key role, ih, Arg.cell_key role]
      rfl
    · rw [not_exists] at key
      rw [placeByRole_cons_prop key, ih, Arg.cell_prop key]
      rfl

/-- Values are put where their names say, unless a name says nothing. -/
theorem placeByName_eq (rel : RelSchema) (c : RelationContent) (l : List (String × Value)) :
    placeByName rel c l = (·.foldl put c) <$> l.mapM fun e => (·, e.2) <$> rel.cellOf e.1 := by
  induction l generalizing c with
  | nil => rfl
  | cons e rest ih =>
    obtain ⟨name, v⟩ := e
    have step (p : Cell) : placeByName rel (c.put (p, v)) rest =
        (·.foldl put c) <$> (do
          let others ← rest.mapM fun e => (·, e.2) <$> rel.cellOf e.1
          return (p, v) :: others) := by
      rw [ih]
      cases rest.mapM fun e => (·, e.2) <$> rel.cellOf e.1 <;> rfl
    rw [List.mapM_cons, placeByName, RelSchema.cellOf]
    -- the tests come in the order in which `cellOf` makes them
    dsimp only
    split
    · exact step (.prop name)
    split
    · rfl
    split
    · exact step (.key .sub name)
    split
    · exact step (.key .obj name)
    cases markedKey? rel .sub name with
    | some key => exact step (.key .sub key)
    | none =>
      cases markedKey? rel .obj name with
      | some key => exact step (.key .obj key)
      | none => exact step (.prop name)

end Terms

/-! ### The cells of a relation -/

namespace RelSchema

theorem argNames_cells (rel : RelSchema) : rel.cells.map Cell.argName = rel.signature.names := by
  have names : rel.signature.names = rel.signature.args.map (·.name) := rfl
  rw [names, args_signature, List.map_append, List.map_append, names_argsAt, names_argsAt, cells,
    List.map_append, List.map_append, List.map_map, List.map_map, List.map_map]
  exact congrArg (_ ++ ·) (congrArg (_ ++ ·) (List.map_id _))

theorem nodup_argNames (rel : RelSchema) : (rel.cells.map Cell.argName).Nodup := by
  rw [argNames_cells]
  exact rel.signature.names_nodup

theorem length_cells (rel : RelSchema) : rel.cells.length = rel.signature.args.length := by
  rw [← List.length_map Cell.argName, argNames_cells]
  exact List.length_map _

/-- Without a prop that has the role of a side, roles say where values go. -/
theorem map_cell_args {rel : RelSchema}
    (plain : ∀ a ∈ rel.props.args, ∀ side : Side, a.role ≠ some side.role) :
    rel.signature.args.map Arg.cell = rel.cells := by
  have keys (side : Side) : (rel.argsAt side).map Arg.cell =
      (rel.keyFieldsOf side).map (.key side) := by
    rw [← bareNames_argsAt, List.map_map]
    exact List.map_congr_left fun a mem => Arg.cell_key (role_of_mem_argsAt mem)
  have props : rel.props.args.map Arg.cell = rel.props.names.map .prop := by
    rw [Signature.names, List.map_map]
    exact List.map_congr_left fun a mem => Arg.cell_prop (plain a mem)
  rw [args_signature, List.map_append, List.map_append, keys, keys, props]
  rfl

theorem key_mem_cells {rel : RelSchema} {side : Side} {k : String} :
    .key side k ∈ rel.cells ↔ k ∈ rel.keyFieldsOf side := by
  cases side <;> simp [cells, keyFieldsOf]

theorem prop_mem_cells {rel : RelSchema} {name : String} :
    .prop name ∈ rel.cells ↔ name ∈ rel.props.names := by
  simp [cells]

/-- No prop is named like the argument for a key field. -/
theorem start_append_not_mem_props {rel : RelSchema} {side : Side} {k : String}
    (mem : k ∈ rel.keyFieldsOf side) : side.start ++ k ∉ rel.props.names := by
  intro prop
  have same := List.inj_on_of_nodup_map rel.nodup_argNames (key_mem_cells.2 mem)
    (prop_mem_cells.2 prop) rfl
  cases same

theorem cellOf_prop {rel : RelSchema} {name : String} (mem : name ∈ rel.props.names) :
    rel.cellOf name = .ok (.prop name) :=
  if_pos (Signature.isSome_find?_iff.2 mem)

theorem markedKey?_start {rel : RelSchema} {side : Side} {k : String}
    (mem : k ∈ rel.keyFieldsOf side) : Terms.markedKey? rel side (side.start ++ k) = some k := by
  rw [Terms.markedKey?, Text.stripStart?_append, Option.filter_some,
    if_pos (List.contains_iff_mem.2 mem)]

theorem markedKey?_sub_start_obj (rel : RelSchema) (k : String) :
    Terms.markedKey? rel .sub (Side.start .obj ++ k) = none := by
  have other : Text.stripStart? (Side.start .sub) (Side.start .obj ++ k) = none := by
    rw [Text.stripStart?, String.toList_append]
    exact if_neg (by simp [Side.start])
  rw [Terms.markedKey?, other]
  rfl

/-- The name of the argument for a key field marks its side, unless it is a key field itself. -/
theorem cellOf_key {rel : RelSchema} {side : Side} {k : String}
    (mem : k ∈ rel.keyFieldsOf side)
    (apart : ∀ side', side.start ++ k ∉ rel.keyFieldsOf side') :
    rel.cellOf (side.start ++ k) = .ok (.key side k) := by
  have unnamed : ¬(rel.props.find? (side.start ++ k)).isSome = true :=
    Signature.isSome_find?_iff.not.2 (start_append_not_mem_props mem)
  have sub : rel.subKeyFields.contains (side.start ++ k) = false := by
    rw [← Bool.not_eq_true, List.contains_iff_mem]
    exact apart .sub
  have obj : rel.objKeyFields.contains (side.start ++ k) = false := by
    rw [← Bool.not_eq_true, List.contains_iff_mem]
    exact apart .obj
  unfold cellOf
  simp only [if_neg unnamed, sub, obj]
  cases side with
  | sub => rw [markedKey?_start mem]; rfl
  | obj => rw [markedKey?_sub_start_obj, markedKey?_start mem]; rfl

/-- No argument for a key field is named like a key field. -/
def KeysApart (rel : RelSchema) : Prop :=
  ∀ side : Side, ∀ k ∈ rel.keyFieldsOf side, ∀ side', side.start ++ k ∉ rel.keyFieldsOf side'

theorem cellOf_argName {rel : RelSchema} (apart : rel.KeysApart) :
    ∀ p ∈ rel.cells, rel.cellOf p.argName = .ok p := by
  intro p mem
  cases p with
  | key side k =>
    have mem := key_mem_cells.1 mem
    exact cellOf_key mem (apart side k mem)
  | prop name => exact cellOf_prop (prop_mem_cells.1 mem)

/-! ### The content that values give -/

/-- The values of the props, when there is one for each argument. -/
def propSlots (rel : RelSchema) (values : List Value) : List Value :=
  values.drop ((rel.keyFieldsOf .sub).length + (rel.keyFieldsOf .obj).length)

/-- The content that has one value for each argument, in their order. -/
def contentOf (rel : RelSchema) (values : List Value) : RelationContent where
  sub := .ofList ((rel.keyFieldsOf .sub).zip (rel.slots values .sub))
  obj := .ofList ((rel.keyFieldsOf .obj).zip (rel.slots values .obj))
  props := .ofList (rel.props.names.zip (rel.propSlots values))

end RelSchema

namespace RelationContent

/-- Values for cells in one map are put into that map. -/
theorem foldl_put (cell : String → Cell) (around : FieldMap → RelationContent)
    (each : ∀ m k v, (around m).put (cell k, v) = around (m.insert k v)) (fields : List String)
    (values : List Value) (m : FieldMap) :
    ((fields.map cell).zip values).foldl put (around m) =
      around ((fields.zip values).foldl (fun m e => m.insert e.1 e.2) m) := by
  rw [List.zip_map_left, List.foldl_map]
  exact List.foldl_hom around fun m e => each m e.1 e.2

/-- Values that are put in the cells in order give the content. -/
theorem foldl_put_cells (rel : RelSchema) (values : List Value) :
    (rel.cells.zip values).foldl put .empty = rel.contentOf values := by
  rw [RelSchema.cells, zip_append_eq, zip_append_eq, List.foldl_append, List.foldl_append,
    List.length_map, List.length_map, List.drop_drop]
  have subs := foldl_put (.key .sub) (fun m => ⟨m, .empty, .empty⟩)
    (fun _ _ _ => rfl) rel.subKeyFields (values.take rel.subKeyFields.length) .empty
  have objs (m : FieldMap) := foldl_put (.key .obj) (fun m' => ⟨m, m', .empty⟩)
    (fun _ _ _ => rfl) rel.objKeyFields
    ((values.drop rel.subKeyFields.length).take rel.objKeyFields.length) .empty
  have props (m m' : FieldMap) := foldl_put .prop (fun m'' => ⟨m, m', m''⟩)
    (fun _ _ _ => rfl) rel.props.names
    (values.drop (rel.subKeyFields.length + rel.objKeyFields.length)) .empty
  rw [empty, subs, objs, props]
  rfl

end RelationContent

end Clausal
