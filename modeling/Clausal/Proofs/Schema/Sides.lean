import Clausal.Schema.Basic
import Mathlib.Data.List.Nodup

/-!
# Arguments of the sides of a relation

The arguments of a relation are those of its two sides and its props. A side has one argument for each
of its key fields, with the role of the side and a name that starts with the mark of the side.
-/

namespace Clausal

theorem Signature.length_names (s : Signature) : s.names.length = s.length :=
  List.length_map _

theorem Signature.isSome_find?_iff {s : Signature} {name : String} :
    (s.find? name).isSome = true ↔ name ∈ s.names := by
  rw [find?, List.find?_isSome, names, List.mem_map]
  simp

theorem Signature.find?_eq_some_iff {s : Signature} {name : String} {a : Arg} :
    s.find? name = some a ↔ a ∈ s.args ∧ a.name = name := by
  have sound {b : Arg} (found : s.find? name = some b) : b ∈ s.args ∧ b.name = name := by
    rw [find?, List.find?_eq_some_iff_append] at found
    obtain ⟨same, before, after, split, -⟩ := found
    exact ⟨split ▸ List.mem_append_right _ List.mem_cons_self, eq_of_beq same⟩
  refine ⟨sound, fun ⟨mem, same⟩ => ?_⟩
  have declared : name ∈ s.names := same ▸ List.mem_map_of_mem mem
  obtain ⟨b, found⟩ := Option.isSome_iff_exists.1 (isSome_find?_iff.2 declared)
  obtain ⟨mem', same'⟩ := sound found
  rw [found, List.inj_on_of_nodup_map s.names_nodup mem' mem (same'.trans same.symm)]

namespace RelSchema

/-- The arguments for the key fields of the entity schema at a side. -/
def argsAt (rel : RelSchema) (side : Side) : List Arg :=
  endpointArgs (rel.endpoint side) (rel.keyFieldsOf side) side

theorem args_signature (rel : RelSchema) :
    rel.signature.args = rel.argsAt .sub ++ (rel.argsAt .obj ++ rel.props.args) :=
  List.append_assoc ..

theorem keyFieldsOf_subset (rel : RelSchema) (side : Side) :
    rel.keyFieldsOf side ⊆ (rel.endpoint side).signature.names := by
  cases side with
  | sub => exact rel.subKeyFields_subset
  | obj => exact rel.objKeyFields_subset

theorem names_endpointArgs {endpoint : FactSchema} {keyFields : List String} (side : Side)
    (h : keyFields ⊆ endpoint.signature.names) :
    (endpointArgs endpoint keyFields side).map (·.name) = keyFields.map (side.start ++ ·) := by
  rw [endpointArgs, List.map_filterMap, ← List.filterMap_eq_map]
  refine List.filterMap_congr fun key hk => ?_
  obtain ⟨arg, found⟩ := Option.isSome_iff_exists.1 (Signature.isSome_find?_iff.2 (h hk))
  rw [found]
  rfl

theorem names_argsAt (rel : RelSchema) (side : Side) :
    (rel.argsAt side).map (·.name) = (rel.keyFieldsOf side).map (side.start ++ ·) :=
  names_endpointArgs side (rel.keyFieldsOf_subset side)

theorem mem_keyFields {r : RelSchema} {name : String} :
    name ∈ r.keyFields ↔ ∃ side, ∃ k ∈ r.keyFieldsOf side, side.start ++ k = name := by
  have names : r.keyFields = (r.keyFieldsOf .sub).map (Side.sub.start ++ ·) ++
      (r.keyFieldsOf .obj).map (Side.obj.start ++ ·) := by
    rw [← names_argsAt, ← names_argsAt, ← List.map_append]
    rfl
  rw [names, List.mem_append, List.mem_map, List.mem_map]
  constructor
  · rintro (here | here)
    · exact ⟨.sub, here⟩
    · exact ⟨.obj, here⟩
  · rintro ⟨_ | _, here⟩
    · exact .inl here
    · exact .inr here

theorem length_argsAt (rel : RelSchema) (side : Side) :
    (rel.argsAt side).length = (rel.keyFieldsOf side).length := by
  rw [← List.length_map, names_argsAt, List.length_map]

theorem exists_of_mem_argsAt {rel : RelSchema} {side : Side} {a : Arg}
    (h : a ∈ rel.argsAt side) : ∃ k ∈ rel.keyFieldsOf side,
      ∃ b, (rel.endpoint side).signature.find? k = some b ∧
        a = ⟨side.start ++ k, b.datatype, some side.role, b.space⟩ := by
  obtain ⟨k, mem, found⟩ := List.mem_filterMap.1 h
  obtain ⟨b, declared, rfl⟩ := Option.map_eq_some_iff.1 found
  exact ⟨k, mem, b, declared, rfl⟩

theorem role_of_mem_argsAt {rel : RelSchema} {side : Side} {a : Arg} (h : a ∈ rel.argsAt side) :
    a.role = some side.role := by
  obtain ⟨k, -, b, -, rfl⟩ := exists_of_mem_argsAt h
  rfl

theorem hasRole_argsAt {rel : RelSchema} {side side' : Side} {b : Bool}
    (h : (side == side') = b) : ∀ a ∈ rel.argsAt side, (a.role == some side'.role) = b := by
  intro a ha
  rw [role_of_mem_argsAt ha, ← h]
  cases side <;> cases side' <;> rfl

theorem length_keyFieldsOf {rel : RelSchema}
    (single : rel.subKeyFields.length = 1 ∧ rel.objKeyFields.length = 1) (side : Side) :
    (rel.keyFieldsOf side).length = 1 := by
  cases side with
  | sub => exact single.1
  | obj => exact single.2

/-- Arguments have different names, so that the key fields of a side are different. -/
theorem nodup_keyFieldsOf (rel : RelSchema) (side : Side) : (rel.keyFieldsOf side).Nodup := by
  have names := rel.signature.names_nodup
  rw [args_signature, List.map_append, List.map_append, names_argsAt, names_argsAt] at names
  obtain ⟨subs, others, -⟩ := List.nodup_append.1 names
  obtain ⟨objs, -, -⟩ := List.nodup_append.1 others
  cases side with
  | sub => exact subs.of_map
  | obj => exact objs.of_map

theorem arity_eq (r : RelSchema) :
    (Schema.rel r).arity = r.subKeyFields.length + r.objKeyFields.length + r.props.length := by
  have args := congrArg List.length r.args_signature
  rw [List.length_append, List.length_append, r.length_argsAt .sub, r.length_argsAt .obj] at args
  exact args.trans (Nat.add_assoc _ _ _).symm

end RelSchema

end Clausal
