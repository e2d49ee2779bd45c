import Clausal.Proofs.Registry.Lookups

/-!
# Relations between given entities

Main statement: `Scope.Restricts.relation_last`. Several relations of a registry may have one name
and the same endpoints. Only the last of them in the order of the identifiers is ever found: it is
found without a sign of the others, and a view that does not let it through finds none, even if it
lists one of the others (`relation_acquaintances`).
-/

namespace Clausal

/-- A schema is the last relation of a name between two entities, in the order of the
identifiers. -/
structure Schema.IsLast (schemas : List Schema) (t : Triple) (s : Schema) : Prop where
  mem : s ∈ schemas
  triple : s.triple? = some t
  last : ∀ u ∈ schemas, u.triple? = some t → (compare u.id s.id).isLE = true

/-- The last of some schemas in the order of their identifiers. -/
theorem Schema.getLast?_eq_some_iff {l : List Schema}
    (increasing : l.Pairwise fun a b => compare a.id b.id = .lt) {s : Schema} :
    l.getLast? = some s ↔ s ∈ l ∧ ∀ u ∈ l, (compare u.id s.id).isLE = true := by
  have before {t : Schema} (h : l.getLast? = some t) :
      ∀ u ∈ l, u = t ∨ compare u.id t.id = .lt := by
    obtain ⟨rest, rfl⟩ := List.getLast?_eq_some_iff.1 h
    intro u hu
    rcases List.mem_append.1 hu with hu | hu
    · exact .inr ((List.pairwise_append.1 increasing).2.2 u hu t (.head _))
    · exact .inl (List.mem_singleton.1 hu)
  constructor
  · intro h
    refine ⟨List.mem_of_getLast? h, fun u hu => ?_⟩
    rcases before h u hu with rfl | less
    · exact Std.ReflCmp.isLE_rfl
    · rw [less]
      rfl
  · rintro ⟨hs, last⟩
    cases h : l.getLast? with
    | none => exact absurd (List.getLast?_eq_none_iff.1 h ▸ hs) List.not_mem_nil
    | some t =>
      rcases before h s hs with rfl | less
      · rfl
      · -- neither of two different schemas comes after the other
        have le := last t (List.mem_of_getLast? h)
        rw [Std.OrientedCmp.gt_of_lt less] at le
        cases le

namespace Registry

/-- The index has the last relation of a name between two entities. -/
theorem relation?_eq_some_iff {r : Registry} {schemas : List Schema} (made : r.MadeOf schemas)
    {t : Triple} {s : Schema} : r.index.relation? t = some s ↔ Schema.IsLast schemas t s := by
  rw [relation?_index, Schema.getLast?_eq_some_iff (pairwise_inOrder.filter _)]
  simp only [List.mem_filter, decide_eq_true_eq, r.perm_inOrder.mem_iff, made.mem_iff, and_imp]
  exact ⟨fun ⟨⟨mem, triple⟩, last⟩ => ⟨mem, triple, last⟩,
    fun ⟨mem, triple, last⟩ => ⟨⟨mem, triple⟩, last⟩⟩

end Registry

namespace Scope

/-- A view looks at the relation that the index has, and at no other one. -/
theorem relation_eq (scope : Scope) (name sub obj : String) : scope.relation name sub obj =
    ((scope.parent.index.relation? ⟨name, sub, obj⟩).filter (scope.allows ·.id)).elim
      (.error (.unknownRelationTriple name sub obj)) .ok := by
  cases scope with
  | registry r =>
    dsimp only [relation, Registry.relation, parent, allows]
    cases r.index.relation? ⟨name, sub, obj⟩ <;> rfl
  | view v =>
    dsimp only [relation, View.relation, parent, allows]
    cases (v.parent.index.relation? ⟨name, sub, obj⟩).filter (v.allows ·.id) <;> rfl

section Relation

variable {scope : Scope} {name sub obj : String}

theorem relation_eq_ok_iff {s : Schema} : scope.relation name sub obj = .ok s ↔
    scope.parent.index.relation? ⟨name, sub, obj⟩ = some s ∧ scope.allows s.id = true := by
  rw [relation_eq, ← Option.filter_eq_some_iff (p := fun s : Schema => scope.allows s.id)]
  cases (scope.parent.index.relation? ⟨name, sub, obj⟩).filter (scope.allows ·.id) <;> simp

theorem relation_eq_error_iff {e : SchemaError} : scope.relation name sub obj = .error e ↔
    e = .unknownRelationTriple name sub obj ∧ ∀ s, scope.relation name sub obj ≠ .ok s := by
  rw [relation_eq]
  cases (scope.parent.index.relation? ⟨name, sub, obj⟩).filter (scope.allows ·.id) <;>
    simp [eq_comm]

variable {schemas : List Schema} {allowed : String → Prop} (h : Restricts schemas scope allowed)

include h

theorem Restricts.relation_eq_ok_iff {s : Schema} : scope.relation name sub obj = .ok s ↔
    Schema.IsLast schemas ⟨name, sub, obj⟩ s ∧ allowed s.id := by
  rw [Scope.relation_eq_ok_iff, Registry.relation?_eq_some_iff h.made]
  refine and_congr_right fun last => ?_
  rw [allows_iff (h.made.mem_iff.2 last.mem), h.mem_ids_iff]

theorem Restricts.relation_eq_error_iff {e : SchemaError} :
    scope.relation name sub obj = .error e ↔ e = .unknownRelationTriple name sub obj ∧
      ∀ s, Schema.IsLast schemas ⟨name, sub, obj⟩ s → ¬ allowed s.id := by
  simp only [Scope.relation_eq_error_iff, ne_eq, h.relation_eq_ok_iff, not_and]

/-- **The last relation is the one that is found.** Of the relations of a registry that have one
name and the same endpoints, the registry and its views find the last one in the order of the
identifiers, if it is let through. Otherwise the error says that there is none. -/
theorem Restricts.relation_last (name sub obj : String) :
    (∀ s, scope.relation name sub obj = .ok s ↔
      Schema.IsLast schemas ⟨name, sub, obj⟩ s ∧ allowed s.id) ∧
    ∀ e, scope.relation name sub obj = .error e ↔ e = .unknownRelationTriple name sub obj ∧
      ∀ s, Schema.IsLast schemas ⟨name, sub, obj⟩ s → ¬ allowed s.id :=
  ⟨fun _ => h.relation_eq_ok_iff, fun _ => h.relation_eq_error_iff⟩

end Relation

end Scope

/-! ### Two relations of one name -/

/-- What `knows` and `undated` are both looked up by. -/
def Triple.knowing : Triple := ⟨"knows", FactSchema.person.id, FactSchema.person.id⟩

theorem Schema.isLast_undated :
    IsLast Registry.acquaintances.predicates .knowing (.rel .undated) where
  mem := .tail _ (.tail _ (.head _))
  triple := rfl
  last u hu isTriple := by
    simp only [Registry.acquaintances, List.mem_cons, List.not_mem_nil, or_false] at hu
    rcases hu with rfl | rfl | rfl
    · cases isTriple
    · exact congrArg Ordering.isLE Registry.compare_knows_undated
    · exact Std.ReflCmp.isLE_rfl

namespace Scope

/-- The registry finds one of two relations and says nothing about the other one, which a view lists
alone and does not find. -/
theorem relation_acquaintances :
    (∃ s ∈ Registry.acquaintances.predicates, ∃ t ∈ Registry.acquaintances.predicates, s ≠ t ∧
      s.triple? = some .knowing ∧ t.triple? = some .knowing ∧
      Registry.acquaintances.relation "knows" FactSchema.person.id FactSchema.person.id = .ok t) ∧
    ∃ v, View.ofIds .acquaintances [FactSchema.person.id, RelSchema.knows.id] = .ok v ∧
      (∀ s, s ∈ v.predicates ∧ s.triple? = some .knowing ↔ s = .rel .knows) ∧
      v.relation "knows" FactSchema.person.id FactSchema.person.id =
        .error (.unknownRelationTriple "knows" FactSchema.person.id FactSchema.person.id) := by
  have made := Registry.acquaintances.madeOf_predicates
  constructor
  · refine ⟨.rel .knows, .tail _ (.head _), .rel .undated, Schema.isLast_undated.mem, fun same => ?_,
      rfl, rfl, ?_⟩
    · have props := congrArg RelSchema.props (Schema.rel.inj same)
      exact absurd props (by decide)
    · exact (Restricts.registry made).relation_eq_ok_iff.2
        ⟨Schema.isLast_undated, List.mem_map_of_mem Schema.isLast_undated.mem⟩
  · -- the view lets through the first relation alone, and the index has the other one
    obtain ⟨v, h, restricts⟩ := exists_view_knows
    have apart : RelSchema.undated.id ∉ [FactSchema.person.id, RelSchema.knows.id] := by
      rw [RelSchema.id_undated, FactSchema.id_person, RelSchema.id_knows]
      decide +kernel
    refine ⟨v, h, fun s => ?_, restricts.relation_eq_error_iff.2 ⟨rfl, fun s last => ?_⟩⟩
    · have listed : s ∈ v.predicates ↔ _ := restricts.mem_predicates
      rw [listed]
      constructor
      · rintro ⟨⟨held, visible⟩, isTriple⟩
        simp only [Registry.acquaintances, List.mem_cons, List.not_mem_nil, or_false] at held
        rcases held with rfl | rfl | rfl
        · cases isTriple
        · rfl
        · exact absurd visible apart
      · rintro rfl
        exact ⟨⟨.tail _ (.head _), .tail _ (.head _)⟩, rfl⟩
    · have found := (Registry.relation?_eq_some_iff made).2 last
      cases found.symm.trans ((Registry.relation?_eq_some_iff made).2 Schema.isLast_undated)
      exact apart

theorem Restricts.relation_last_acquaintances :
    ∃ v, View.ofIds .acquaintances [FactSchema.person.id, RelSchema.knows.id] = .ok v ∧
      Restricts Registry.acquaintances.predicates (.view v)
        (· ∈ [FactSchema.person.id, RelSchema.knows.id]) ∧
      (∀ s, v.relation "knows" FactSchema.person.id FactSchema.person.id = .ok s ↔
        Schema.IsLast Registry.acquaintances.predicates .knowing s ∧
          s.id ∈ [FactSchema.person.id, RelSchema.knows.id]) ∧
      ∀ e, v.relation "knows" FactSchema.person.id FactSchema.person.id = .error e ↔
        e = .unknownRelationTriple "knows" FactSchema.person.id FactSchema.person.id ∧
          ∀ s, Schema.IsLast Registry.acquaintances.predicates .knowing s →
            ¬ s.id ∈ [FactSchema.person.id, RelSchema.knows.id] := by
  obtain ⟨v, made, restricts⟩ := exists_view_knows
  exact ⟨v, made, restricts, restricts.relation_last _ _ _⟩

end Scope

end Clausal
