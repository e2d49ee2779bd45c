import Mathlib.Data.Finset.Dedup
import Mathlib.Data.Finset.SDiff
import Clausal.Proofs.Registry.Scopes
import Clausal.Record.Store

/-!
# Filters and what they let through

Main statement: `View.ofFilter_boolean`. Views of filters are put together as the filters are: by
intersection, union and complement. A store that is asked through a view and a filter gives back the
records of the predicates that both let through. It never fails, since a view only lets through
identifiers of schemas that the registry has (`RecordStore.isWanted_eq`).
-/

namespace Clausal

/-! ### Filters of filters -/

namespace Filter

theorem allAdmit_eq (s : Schema) (filters : List Filter) :
    allAdmit s filters = filters.all (admits s) := by
  induction filters with
  | nil => rfl
  | cons f rest ih => rw [allAdmit, ih, List.all_cons]

theorem anyAdmits_eq (s : Schema) (filters : List Filter) :
    anyAdmits s filters = filters.any (admits s) := by
  induction filters with
  | nil => rfl
  | cons f rest ih => rw [anyAdmits, ih, List.any_cons]

/-- A condition that is put behind others is one of them. -/
theorem admits_and (s : Schema) (f g : Filter) :
    (f.and g).admits s = (f.admits s && g.admits s) := by
  cases f with
  | all filters =>
    simp only [Filter.and, admits, allAdmit_eq, List.all_append, List.all_cons, List.all_nil,
      Bool.and_true]
  | matching | any | not => simp only [Filter.and, admits, allAdmit, Bool.and_true]

theorem admits_or (s : Schema) (f g : Filter) : (f.or g).admits s = (f.admits s || g.admits s) := by
  cases f with
  | any filters =>
    simp only [Filter.or, admits, anyAdmits_eq, List.any_append, List.any_cons, List.any_nil,
      Bool.or_false]
  | matching | all | not => simp only [Filter.or, admits, anyAdmits, Bool.or_false]

end Filter

/-! ### Views of filters -/

namespace View

/-- The identifiers that a view lets through. -/
def shown (v : View) : Finset String := v.allowed.toFinset

theorem mem_shown {v : View} {id : String} : id ∈ v.shown ↔ v.allows id = true :=
  List.mem_toFinset.trans List.contains_iff_mem.symm

theorem shown_subset (v : View) : v.shown ⊆ v.parent.ids.toFinset := fun _ h =>
  List.mem_toFinset.2 (v.allowed_sublist.subset (List.mem_toFinset.1 h))

/-- An identifier of a registry is that of a schema. -/
theorem exists_of_mem_ids {r : Registry} {id : String} (h : id ∈ r.ids.toFinset) :
    ∃ s ∈ r.predicates, s.id = id :=
  List.mem_map.1 (r.madeOf_predicates.mem_ids_iff.1 (List.mem_toFinset.1 h))

/-- Identifiers of a registry are told apart by its schemas. -/
theorem eq_of_forall_mem {r : Registry} {a b : Finset String} (ha : a ⊆ r.ids.toFinset)
    (hb : b ⊆ r.ids.toFinset) (same : ∀ s ∈ r.predicates, s.id ∈ a ↔ s.id ∈ b) : a = b := by
  refine Finset.Subset.antisymm (fun id mem => ?_) (fun id mem => ?_)
  · obtain ⟨s, held, rfl⟩ := exists_of_mem_ids (ha mem)
    exact (same s held).1 mem
  · obtain ⟨s, held, rfl⟩ := exists_of_mem_ids (hb mem)
    exact (same s held).2 mem

/-- The view of a filter lets a schema through when the filter admits it: no other schema has its
identifier. -/
theorem mem_shown_ofFilter {r : Registry} {s : Schema} (held : s ∈ r.predicates) (f : Filter) :
    s.id ∈ (ofFilter r f).shown ↔ f.admits s = true := by
  have wanted : s.id ∈ (Scope.view (ofFilter r f)).ids ↔
      ∃ t ∈ r.predicates, t.id = s.id ∧ f.admits t = true :=
    (Scope.Restricts.filter r.madeOf_predicates f).mem_ids_iff
  refine List.mem_toFinset.trans (wanted.trans ?_)
  constructor
  · rintro ⟨t, ht, same, admitted⟩
    rwa [List.inj_on_of_nodup_map r.ids_nodup held ht same.symm]
  · exact fun admitted => ⟨s, held, rfl, admitted⟩

end View

/-! ### Queries -/

namespace RecordStore

theorem foldl_push (records : List Record) : records.foldl push empty = ⟨records⟩ := by
  induction records using List.reverseRecOn with
  | nil => rfl
  | append_singleton records r ih => rw [List.foldl_concat, ih, push]

/-- Whether a record is wanted is always known. -/
theorem isWanted_eq (v : View) (filter : Option Filter) (r : Record) :
    isWanted v filter r = .ok (decide (r.schemaId ∈ v.shown ∧
      ∀ f ∈ filter, r.schemaId ∈ (View.ofFilter v.parent f).shown)) := by
  unfold isWanted
  by_cases visible : v.allows r.schemaId
  · have shown : r.schemaId ∈ v.shown := View.mem_shown.2 visible
    obtain ⟨s, held, same⟩ := View.exists_of_mem_ids (v.shown_subset shown)
    have found : v.get r.schemaId = .ok s := by
      rw [View.get, if_pos visible, Registry.get_eq_ok_iff]
      exact ⟨held, same⟩
    rw [if_pos visible, found, ok_bind]
    refine congrArg Except.ok (Bool.eq_iff_iff.2 ?_)
    rw [decide_eq_true_iff, and_iff_right shown, ← same]
    cases filter with
    | none => simp
    | some f => simp [View.mem_shown_ofFilter held]
  · have hidden : r.schemaId ∉ v.shown := mt View.mem_shown.1 visible
    rw [if_neg visible, decide_eq_false fun wanted => hidden wanted.1]

theorem pick_eq (v : View) (filter : Option Filter) (records : List Record) :
    pick v filter records = .ok (records.filter fun r => r.schemaId ∈ v.shown ∧
      ∀ f ∈ filter, r.schemaId ∈ (View.ofFilter v.parent f).shown) := by
  induction records with
  | nil => rfl
  | cons r rest ih =>
    rw [pick, isWanted_eq, ok_bind, ih, ok_bind, List.filter_cons]
    rfl

end RecordStore

/-! ### Views and queries -/

section Laws

variable (r : Registry) (f g : Filter)

theorem View.shown_ofFilter_and :
    (ofFilter r (f.and g)).shown = (ofFilter r f).shown ∩ (ofFilter r g).shown := by
  refine eq_of_forall_mem (r := r) (shown_subset _) ?_ fun s held => ?_
  · exact Finset.inter_subset_left.trans (shown_subset _)
  · rw [Finset.mem_inter, mem_shown_ofFilter held, mem_shown_ofFilter held,
      mem_shown_ofFilter held, Filter.admits_and, Bool.and_eq_true]

theorem View.shown_ofFilter_or :
    (ofFilter r (f.or g)).shown = (ofFilter r f).shown ∪ (ofFilter r g).shown := by
  refine eq_of_forall_mem (r := r) (shown_subset _) ?_ fun s held => ?_
  · exact Finset.union_subset (shown_subset _) (shown_subset _)
  · rw [Finset.mem_union, mem_shown_ofFilter held, mem_shown_ofFilter held,
      mem_shown_ofFilter held, Filter.admits_or, Bool.or_eq_true]

theorem View.shown_ofFilter_not :
    (ofFilter r (.not f)).shown = r.ids.toFinset \ (ofFilter r f).shown := by
  refine eq_of_forall_mem (r := r) (shown_subset _) Finset.sdiff_subset fun s held => ?_
  have known : s.id ∈ r.ids.toFinset :=
    List.mem_toFinset.2 (r.madeOf_predicates.mem_ids_iff.2 (List.mem_map_of_mem held))
  rw [Finset.mem_sdiff, mem_shown_ofFilter held, mem_shown_ofFilter held, Filter.admits,
    Bool.not_eq_true']
  simp [known]

end Laws

/-- **Filters are a Boolean algebra of views**, and queries respect it. A conjunction lets through what
both filters do, a disjunction what one of them does, and a negation what is left of the registry. A
store that records are pushed into gives back, in their order, those of the predicates that the view
and the view of the filter let through. -/
theorem View.ofFilter_boolean :
    (∀ (r : Registry) (f g : Filter),
      (ofFilter r (f.and g)).shown = (ofFilter r f).shown ∩ (ofFilter r g).shown ∧
      (ofFilter r (f.or g)).shown = (ofFilter r f).shown ∪ (ofFilter r g).shown ∧
      (ofFilter r (.not f)).shown = r.ids.toFinset \ (ofFilter r f).shown) ∧
    ∀ (v : View) (records : List Record),
      (∀ f, (records.foldl RecordStore.push .empty).query v (some f) =
        .ok (records.filter fun r => r.schemaId ∈ v.shown ∩ (ofFilter v.parent f).shown)) ∧
      (records.foldl RecordStore.push .empty).query v none =
        .ok (records.filter fun r => r.schemaId ∈ v.shown) := by
  refine ⟨fun r f g => ⟨shown_ofFilter_and r f g, shown_ofFilter_or r f g, shown_ofFilter_not r f⟩,
    fun v records => ?_⟩
  rw [RecordStore.foldl_push]
  refine ⟨fun f => ?_, ?_⟩
  · rw [RecordStore.query, RecordStore.pick_eq]
    simp only [Option.mem_some_iff, forall_eq', Finset.mem_inter]
  · rw [RecordStore.query, RecordStore.pick_eq]
    simp

end Clausal
