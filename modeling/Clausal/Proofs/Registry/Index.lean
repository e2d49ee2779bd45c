import Mathlib.Data.List.Nodup
import Clausal.Proofs.Maps
import Clausal.Registry.Basic

/-!
# What the index of a registry finds

One schema is noted at a time, which is said by `idsNamed_note` and `byTriple_note`. After the whole
pass the index finds by name the schemas of that name in the order of their identifiers
(`named_ofSchemas`), and by name and endpoints the last such relation in that order
(`relation?_ofSchemas`).
-/

namespace Clausal

/-! ### Orders of keys -/

instance : Std.LawfulEqOrd Kind where
  eq_of_compare {a b} := by cases a <;> cases b <;> decide

instance : Std.LawfulEqOrd NameKey where
  eq_of_compare {a b} h := by
    obtain ⟨kinds, names⟩ := compareLex_eq_eq.1 h
    have kind : a.kind = b.kind := Std.LawfulEqCmp.eq_of_compare kinds
    have name : a.name = b.name := Std.LawfulEqCmp.eq_of_compare names
    rw [NameKey.mk.injEq]
    exact ⟨kind, name⟩

instance : Std.LawfulEqOrd Triple where
  eq_of_compare {a b} h := by
    obtain ⟨names, h⟩ := compareLex_eq_eq.1 h
    obtain ⟨subs, objs⟩ := compareLex_eq_eq.1 h
    have name : a.name = b.name := Std.LawfulEqCmp.eq_of_compare names
    have sub : a.sub = b.sub := Std.LawfulEqCmp.eq_of_compare subs
    have obj : a.obj = b.obj := Std.LawfulEqCmp.eq_of_compare objs
    rw [Triple.mk.injEq]
    exact ⟨name, sub, obj⟩

namespace SchemaIndex

/-! ### Noting schemas -/

variable (x : SchemaIndex) (s : Schema) (l : List Schema)

theorem idsNamed_note (key : NameKey) :
    (x.note s).idsNamed key = x.idsNamed key ++ if s.nameKey = key then [s.id] else [] := by
  unfold note
  rw [idsNamed, SortedMap.get?_insert]
  by_cases same : s.nameKey = key
  · subst same
    rw [if_pos Std.ReflCmp.compare_self, if_pos rfl]
    rfl
  · have apart : compare key s.nameKey ≠ .eq := fun eq =>
      same (Std.LawfulEqCmp.eq_of_compare eq).symm
    rw [if_neg apart, if_neg same, List.append_nil]
    rfl

theorem byTriple_note (t : Triple) :
    (x.note s).byTriple.get? t = if s.triple? = some t then some s.id else x.byTriple.get? t := by
  unfold note
  cases s.triple? with
  | none => rfl
  | some t' =>
    dsimp only
    rw [SortedMap.get?_insert]
    simp only [Std.LawfulEqCmp.compare_eq_iff_eq, Option.some.injEq, eq_comm (a := t')]

/-- A pass adds the identifiers of the schemas of a kind and name to those that are there. -/
theorem idsNamed_foldl_note (key : NameKey) : (l.foldl note x).idsNamed key =
    x.idsNamed key ++ (l.filter fun s => s.nameKey = key).map Schema.id := by
  induction l generalizing x with
  | nil => simp
  | cons s rest ih =>
    rw [List.foldl_cons, ih, idsNamed_note, List.append_assoc, List.filter_cons]
    by_cases same : s.nameKey = key <;> simp [same]

/-- Of the relations of a name between two entities the last one counts after a pass. -/
theorem byTriple_foldl_note (t : Triple) : (l.foldl note x).byTriple.get? t =
    ((l.filter fun s => s.triple? = some t).getLast?.map Schema.id).or (x.byTriple.get? t) := by
  induction l generalizing x with
  | nil => rfl
  | cons s rest ih =>
    rw [List.foldl_cons, ih, byTriple_note, List.filter_cons]
    by_cases same : s.triple? = some t
    · simp only [same, if_true, decide_true, List.getLast?_cons]
      cases (rest.filter fun s => s.triple? = some t).getLast? <;> rfl
    · simp only [same, if_false, decide_false, Bool.false_eq_true]

theorem byId_foldl_note : (l.foldl note x).byId = x.byId := by
  induction l generalizing x with
  | nil => rfl
  | cons s rest ih => exact ih (x.note s)

/-! ### The whole pass -/

section OfSchemas

variable {schemas : List Schema}

theorem byId_ofSchemas :
    (ofSchemas schemas).byId = SortedMap.ofList (schemas.map fun s => (s.id, s)) :=
  byId_foldl_note ..

variable (distinct : (schemas.map Schema.id).Nodup)

include distinct

theorem nodup_keyed : ((schemas.map fun s => (s.id, s)).map (·.1)).Nodup := by
  rwa [List.map_map]

theorem get?_byId {id : String} {s : Schema} :
    (ofSchemas schemas).byId.get? id = some s ↔ s ∈ schemas ∧ s.id = id := by
  rw [byId_ofSchemas, SortedMap.get?_ofList (nodup_keyed distinct), List.mem_map]
  constructor
  · rintro ⟨t, ht, eq⟩
    cases eq
    exact ⟨ht, rfl⟩
  · rintro ⟨hs, rfl⟩
    exact ⟨s, hs, rfl⟩

/-- The schemas of the index are those that it was made of. -/
theorem perm_values : (ofSchemas schemas).byId.values.Perm schemas := by
  rw [byId_ofSchemas, SortedMap.values]
  refine ((SortedMap.perm_ofList (nodup_keyed distinct)).map _).trans ?_
  rw [List.map_map]
  exact .of_eq (List.map_id _)

omit distinct in
/-- The schemas of the index are in the order of their identifiers. -/
theorem pairwise_values :
    (ofSchemas schemas).byId.values.Pairwise fun a b => compare a.id b.id = .lt := by
  rw [byId_ofSchemas]
  refine List.pairwise_map.2 ((SortedMap.increasing _).imp_of_mem fun {a b} ha hb less => ?_)
  obtain ⟨s, -, rfl⟩ := List.mem_map.1 (SortedMap.mem_of_mem_ofList ha)
  obtain ⟨t, -, rfl⟩ := List.mem_map.1 (SortedMap.mem_of_mem_ofList hb)
  exact less

theorem get?_byId_of_mem {s : Schema} (hs : s ∈ (ofSchemas schemas).byId.values) :
    (ofSchemas schemas).byId.get? s.id = some s :=
  (get?_byId distinct).2 ⟨(perm_values distinct).mem_iff.1 hs, rfl⟩

theorem named_ofSchemas (key : NameKey) : (ofSchemas schemas).named key =
    (ofSchemas schemas).byId.values.filter fun s => s.nameKey = key := by
  have ids : (ofSchemas schemas).idsNamed key =
      ((ofSchemas schemas).byId.values.filter fun s => s.nameKey = key).map Schema.id := by
    rw [byId_ofSchemas]
    exact idsNamed_foldl_note ..
  rw [named, ids, List.filterMap_map]
  refine (List.filterMap_congr fun s hs => ?_).trans List.filterMap_some
  exact get?_byId_of_mem distinct (List.mem_filter.1 hs).1

theorem relation?_ofSchemas (t : Triple) : (ofSchemas schemas).relation? t =
    ((ofSchemas schemas).byId.values.filter fun s => s.triple? = some t).getLast? := by
  have noted : (ofSchemas schemas).byTriple.get? t =
      ((ofSchemas schemas).byId.values.filter fun s => s.triple? = some t).getLast?.map Schema.id := by
    rw [byId_ofSchemas]
    exact (byTriple_foldl_note ..).trans Option.or_none
  rw [relation?, noted]
  cases last : ((ofSchemas schemas).byId.values.filter fun s => s.triple? = some t).getLast? with
  | none => rfl
  | some s =>
    exact get?_byId_of_mem distinct (List.mem_filter.1 (List.mem_of_getLast? last)).1

end OfSchemas

end SchemaIndex

namespace Registry

/-! ### Registries -/

variable {r : Registry}

theorem get?_index {id : String} {s : Schema} :
    r.index.byId.get? id = some s ↔ s ∈ r.predicates ∧ s.id = id := by
  rw [r.index_eq, SchemaIndex.get?_byId r.ids_nodup]

theorem get_eq_ok_iff {id : String} {s : Schema} :
    r.get id = .ok s ↔ s ∈ r.predicates ∧ s.id = id := by
  rw [← get?_index, get]
  cases r.index.byId.get? id <;> simp

/-- The schemas of a registry in the order of their identifiers. -/
def inOrder (r : Registry) : List Schema := r.index.byId.values

theorem perm_inOrder : r.inOrder.Perm r.predicates := by
  rw [inOrder, r.index_eq]
  exact SchemaIndex.perm_values r.ids_nodup

theorem pairwise_inOrder : r.inOrder.Pairwise fun a b => compare a.id b.id = .lt := by
  rw [inOrder, r.index_eq]
  exact SchemaIndex.pairwise_values

theorem named_index (key : NameKey) :
    r.index.named key = r.inOrder.filter fun s => s.nameKey = key := by
  rw [inOrder, r.index_eq]
  exact SchemaIndex.named_ofSchemas r.ids_nodup key

theorem relation?_index (t : Triple) :
    r.index.relation? t = (r.inOrder.filter fun s => s.triple? = some t).getLast? := by
  rw [inOrder, r.index_eq]
  exact SchemaIndex.relation?_ofSchemas r.ids_nodup t

end Registry

end Clausal
