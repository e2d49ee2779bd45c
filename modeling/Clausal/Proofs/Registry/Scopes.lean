import Clausal.Proofs.Registry.Built
import Clausal.Proofs.Registry.Index
import Clausal.Proofs.Schema.Spelled

/-!
# Scopes of lookups

Schemas are looked up in a registry or in a view of it. A registry holds the schemas that it is made
of (`Registry.MadeOf.mem_iff`), and a view lets through those that it is asked for
(`Scope.Restricts.mem_ids_iff`).
-/

namespace Clausal

/-! ### The schemas of registries -/

namespace Registry

/-- A registry is made of some schemas: of none, of those of a list, of one more than another one or
of those that a payload stores. -/
inductive MadeOf : Registry → List Schema → Prop
  | empty : MadeOf .empty []
  | ofList {schemas r} (h : ofList schemas = .ok r) : MadeOf r schemas
  | insert {schemas r s r'} (made : MadeOf r schemas) (h : r.insert s = .ok r') :
      MadeOf r' (s :: schemas)
  | ofPayload {schemas p r} (loaded : loadAll p = .ok schemas) (h : ofPayload p = .ok r) :
      MadeOf r schemas

/-- A registry holds the schemas that it is made of, by induction on how it came about. -/
theorem MadeOf.mem_iff {r : Registry} {schemas : List Schema} (made : r.MadeOf schemas)
    {s : Schema} : s ∈ r.predicates ↔ s ∈ schemas := by
  induction made with
  | empty => exact .rfl
  | ofList h => exact mem_of_ofList h
  | insert made h ih =>
    rw [mem_of_ofList h, List.mem_append, (Schema.perm_sortById _).mem_iff, ih, List.mem_singleton,
      List.mem_cons, or_comm]
  | ofPayload loaded h =>
    obtain ⟨schemas, again, h⟩ := ofPayload_eq_ok h
    cases loaded.symm.trans again
    exact mem_of_ofList h

theorem madeOf_predicates (r : Registry) : r.MadeOf r.predicates := .ofList r.ofList_predicates

theorem MadeOf.mem_ids_iff {r : Registry} {schemas : List Schema} (made : r.MadeOf schemas)
    {id : String} : id ∈ r.ids ↔ id ∈ schemas.map Schema.id := by
  simp only [ids, List.mem_map, (Schema.perm_sortById _).mem_iff, made.mem_iff]

end Registry

/-! ### Views -/

theorem View.checkKnown_eq_ok_iff {r : Registry} {ids : List String} :
    View.checkKnown r ids = .ok () ↔ ids ⊆ r.ids := by
  induction ids with
  | nil => simp [checkKnown]
  | cons id rest ih =>
    have held : r.index.byId.contains id = true ↔ id ∈ r.ids := by
      simp only [SortedMap.contains, Option.isSome_iff_exists, Registry.get?_index, Registry.ids,
        List.mem_map, (Schema.perm_sortById _).mem_iff]
    rw [checkKnown, List.cons_subset, ← held, ← ih]
    split <;> simp [*]

theorem View.exists_ofIds {r : Registry} {ids : List String} (known : ids ⊆ r.ids) :
    ∃ v, View.ofIds r ids = .ok v :=
  ⟨_, check_bind_eq_ok.2 ⟨checkKnown_eq_ok_iff.2 known, rfl⟩⟩

namespace Scope

def parent : Scope → Registry
  | .registry r => r
  | .view v => v.parent

/-- Whether a schema of the registry is let through, by its identifier. -/
def allows : Scope → String → Bool
  | .registry _ => fun _ => true
  | .view v => v.allows

def ids : Scope → List String
  | .registry r => r.ids
  | .view v => v.allowed

def names : Scope → List String
  | .registry r => r.names
  | .view v => v.names

/-- A registry that is made of some schemas, or a view of it, with the identifiers that are to be let
through: all, those of a list or those of the schemas that meet a condition. -/
inductive Restricts (schemas : List Schema) : Scope → (String → Prop) → Prop
  | registry {r} (made : r.MadeOf schemas) : Restricts schemas (.registry r) (· ∈ schemas.map Schema.id)
  | ids {r ids v} (made : r.MadeOf schemas) (h : View.ofIds r ids = .ok v) :
      Restricts schemas (.view v) (· ∈ ids)
  | filter {r} (made : r.MadeOf schemas) (f : Filter) :
      Restricts schemas (.view (.ofFilter r f)) fun id => ∃ s ∈ schemas, s.id = id ∧ f.admits s = true
  | full {r} (made : r.MadeOf schemas) :
      Restricts schemas (.view (.full r)) (· ∈ schemas.map Schema.id)

section Restricts

variable {schemas : List Schema} {scope : Scope} {allowed : String → Prop}

theorem Restricts.made (h : Restricts schemas scope allowed) : scope.parent.MadeOf schemas := by
  cases h with
  | registry made => exact made
  | ids made h =>
    obtain ⟨-, h⟩ := check_bind_eq_ok.1 h
    cases h
    exact made
  | filter made => exact made
  | full made => exact made

/-- The identifiers that are let through are those that are to be, and no others. -/
theorem Restricts.mem_ids_iff (h : Restricts schemas scope allowed) {id : String} :
    id ∈ scope.ids ↔ allowed id := by
  cases h with
  | registry made => exact made.mem_ids_iff
  | @ids r ids v made h =>
    obtain ⟨known, h⟩ := check_bind_eq_ok.1 h
    cases h
    refine List.mem_filter.trans ?_
    rw [List.contains_iff_mem]
    exact and_iff_right_of_imp fun wanted => View.checkKnown_eq_ok_iff.1 known wanted
  | @filter r made f =>
    refine List.mem_filter.trans ?_
    simp only [List.any_eq_true, Bool.and_eq_true, beq_iff_eq, made.mem_iff]
    refine and_iff_right_of_imp fun ⟨s, hs, eq, _⟩ => made.mem_ids_iff.2 (List.mem_map.2 ⟨s, hs, eq⟩)
  | full made => exact List.mem_filter.trans ((and_iff_left rfl).trans made.mem_ids_iff)

/-- A view lets nothing through that the registry lacks. -/
theorem ids_subset (scope : Scope) : scope.ids ⊆ scope.parent.ids := by
  cases scope with
  | registry r => exact List.Subset.refl _
  | view v => exact v.allowed_sublist.subset

end Restricts

end Scope

/-! ### People who know each other -/

/-- Who knows whom, no matter since when. -/
def RelSchema.undated : RelSchema where
  name := "knows"
  sub := .person
  obj := .person
  subKeyFields := ["number"]
  subKeyFields_subset := knows.subKeyFields_subset
  objKeyFields := ["number"]
  objKeyFields_subset := knows.objKeyFields_subset
  props := ⟨[], List.nodup_nil⟩
  names_nodup := by decide +kernel
  description := none
  mergePolicy := .latest
  id := _
  id_eq := rfl

theorem RelSchema.id_undated :
    undated.id = "c45b3f76e4ad30c1c72a680021de0792f5e421e2dc26f543b0463c7341720002" := by
  have sub : undated.sub.id = _ := FactSchema.id_person
  have obj : undated.obj.id = _ := FactSchema.id_person
  rw [id_eq_spelled, Identifier.ofText_compact, spelled, sub, obj]
  decide +kernel

namespace Registry

theorem compare_knows_undated : compare RelSchema.knows.id RelSchema.undated.id = .lt := by
  rw [RelSchema.id_knows, RelSchema.id_undated]
  decide +kernel

/-- People and two relations of one name between them. -/
def acquaintances : Registry where
  predicates := [.fact .person, .rel .knows, .rel .undated]
  increasing := by
    simp only [List.pairwise_cons, List.forall_mem_cons, List.not_mem_nil, false_implies,
      implies_true, and_true, List.Pairwise.nil]
    exact ⟨⟨rfl, rfl⟩, compare_knows_undated⟩
  ids_nodup := by
    simp only [List.map_cons, List.map_nil, Schema.id, FactSchema.id_person, RelSchema.id_knows,
      RelSchema.id_undated]
    decide +kernel
  closed := by
    intro s hs
    simp only [List.mem_cons, List.not_mem_nil, or_false] at hs
    rcases hs with rfl | rfl | rfl <;>
      simp [Schema.endpointIds, RelSchema.knows, RelSchema.undated, Schema.id]

end Registry

/-- People and one of the relations can be let through. -/
theorem Scope.exists_view_knows :
    ∃ v, View.ofIds .acquaintances [FactSchema.person.id, RelSchema.knows.id] = .ok v ∧
      Restricts Registry.acquaintances.predicates (.view v)
        (· ∈ [FactSchema.person.id, RelSchema.knows.id]) := by
  have made := Registry.acquaintances.madeOf_predicates
  have known : [FactSchema.person.id, RelSchema.knows.id] ⊆ Registry.acquaintances.ids := by
    intro id hid
    rw [made.mem_ids_iff]
    rcases List.mem_pair.1 hid with rfl | rfl
    · exact .head _
    · exact .tail _ (.head _)
  obtain ⟨v, h⟩ := View.exists_ofIds known
  exact ⟨v, h, .ids made h⟩

end Clausal
