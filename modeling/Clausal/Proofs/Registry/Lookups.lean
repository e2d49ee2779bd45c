import Clausal.Proofs.Registry.Scopes

/-!
# Lookups agree with the listing

Main statement: `Scope.Restricts.isExact`. However a registry came about, it and each of its views
list those schemas of the registry that are let through, and lookups by identifier and by name say
what the listing says: a view lets schemas through before the schemas of a name are counted.
-/

namespace Clausal

namespace Scope

/-! ### Listing and lookups -/

section Lookups

variable {scope : Scope}

/-- A registry lets everything through. -/
theorem filter_allows_registry (r : Registry) (l : List Schema) :
    l.filter ((Scope.registry r).allows ·.id) = l := List.filter_eq_self.2 fun _ _ => rfl

theorem predicates_eq (scope : Scope) :
    scope.predicates = scope.parent.predicates.filter (scope.allows ·.id) := by
  cases scope with
  | registry r => exact (filter_allows_registry r _).symm
  | view v => rfl

theorem allows_iff {s : Schema} (hs : s ∈ scope.parent.predicates) :
    scope.allows s.id = true ↔ s.id ∈ scope.ids := by
  cases scope with
  | registry r =>
    have held : s.id ∈ r.ids :=
      List.mem_map_of_mem ((Schema.perm_sortById r.predicates).mem_iff.2 hs)
    exact iff_of_true rfl held
  | view v => exact List.contains_iff_mem

theorem mem_predicates_iff {s : Schema} :
    s ∈ scope.predicates ↔ s ∈ scope.parent.predicates ∧ s.id ∈ scope.ids := by
  rw [predicates_eq, List.mem_filter]
  exact and_congr_right allows_iff

theorem Restricts.mem_predicates {schemas : List Schema} {allowed : String → Prop}
    (h : Restricts schemas scope allowed) {s : Schema} :
    s ∈ scope.predicates ↔ s ∈ schemas ∧ allowed s.id := by
  rw [mem_predicates_iff, h.made.mem_iff, h.mem_ids_iff]

theorem nodup_ids (scope : Scope) : (scope.predicates.map Schema.id).Nodup := by
  rw [predicates_eq]
  exact scope.parent.ids_nodup.sublist (List.filter_sublist.map _)

theorem get_eq_ok_iff {id : String} {s : Schema} :
    scope.get id = .ok s ↔ s ∈ scope.predicates ∧ s.id = id := by
  rw [predicates_eq, List.mem_filter]
  cases scope with
  | registry r => exact Registry.get_eq_ok_iff.trans (by simp [parent, allows])
  | view v =>
    simp only [get, View.get, parent, allows]
    split
    case isTrue visible =>
      rw [Registry.get_eq_ok_iff, and_assoc]
      exact and_congr_right fun _ => (and_iff_right_of_imp fun eq => eq ▸ visible).symm
    case isFalse hidden =>
      refine iff_of_false (fun h => by cases h) ?_
      rintro ⟨⟨-, visible⟩, rfl⟩
      exact hidden visible

/-- The schemas of a kind and name that are found are those that are listed. The index has them in the
order of the identifiers, so they are the same up to their order. -/
theorem exists_find_eq (scope : Scope) (kind : Kind) (name : String) :
    ∃ found, scope.find kind name = Schema.theOne kind name found ∧
      found.Perm (scope.predicates.filter fun s => s.nameKey = ⟨kind, name⟩) := by
  refine ⟨(scope.parent.index.named ⟨kind, name⟩).filter (scope.allows ·.id), ?_, ?_⟩
  · cases scope with
    | registry r => exact congrArg (Schema.theOne kind name) (filter_allows_registry r _).symm
    | view v => rfl
  · rw [Registry.named_index, predicates_eq, List.filter_filter, List.filter_filter]
    simp only [Bool.and_comm]
    exact Registry.perm_inOrder.filter _

end Lookups

end Scope

namespace Schema

variable {kind : Kind} {name : String} {found : List Schema}

theorem theOne_eq_ok_iff {s : Schema} : theOne kind name found = .ok s ↔ found = [s] := by
  match found with
  | [] => simp [theOne]
  | [t] => simp [theOne]
  | _ :: _ :: _ => simp [theOne]

theorem theOne_eq_unknown_iff :
    theOne kind name found = .error (.unknownPredicate kind name) ↔ found = [] := by
  match found with
  | [] => simp [theOne]
  | [t] => simp [theOne]
  | _ :: _ :: _ => simp [theOne]

theorem theOne_eq_ambiguous_iff {n : Nat} :
    theOne kind name found = .error (.ambiguousPredicate kind name n) ↔
      found.length = n ∧ 2 ≤ n := by
  match found with
  | [] => exact iff_of_false nofun fun ⟨eq, two⟩ => by subst eq; contradiction
  | [t] => exact iff_of_false nofun fun ⟨eq, two⟩ => by subst eq; contradiction
  | _ :: _ :: rest =>
    simp only [theOne, Except.error.injEq, SchemaError.ambiguousPredicate.injEq, true_and]
    refine (and_iff_left_of_imp fun eq => ?_).symm
    rw [← eq, List.length_cons, List.length_cons]
    omega

/-- The names are listed in order, each once. -/
theorem pairwise_namesOf (schemas : List Schema) :
    (namesOf schemas).Pairwise fun a b => compare a b = .lt :=
  List.pairwise_map.2 (SortedMap.increasing _)

theorem mem_namesOf {schemas : List Schema} {name : String} :
    name ∈ namesOf schemas ↔ ∃ s ∈ schemas, s.name = name := by
  rw [namesOf, SortedMap.mem_keys_ofList, List.map_map, List.mem_map]
  rfl

end Schema

namespace Scope

/-! ### Exactness -/

/-- The listing of a scope shows those schemas that are allowed, and lookups agree with it. -/
structure IsExact (scope : Scope) (schemas : List Schema) (allowed : String → Prop) : Prop where
  ids : ∀ id, id ∈ scope.ids ↔ allowed id
  known : ∀ id, allowed id → ∃ s ∈ schemas, s.id = id
  predicates : ∀ s, s ∈ scope.predicates ↔ s ∈ schemas ∧ allowed s.id
  distinct : (scope.predicates.map Schema.id).Nodup
  increasing : scope.predicates.Pairwise fun a b => Schema.listingOrder a b = .lt
  get : ∀ id s, scope.get id = .ok s ↔ s ∈ scope.predicates ∧ s.id = id
  /-- A predicate is found if it is the only one of its kind and name. -/
  find : ∀ kind name s, scope.find kind name = .ok s ↔
    ∀ t, t ∈ scope.predicates ∧ t.kind = kind ∧ t.name = name ↔ t = s
  unknown : ∀ kind name, scope.find kind name = .error (.unknownPredicate kind name) ↔
    ∀ s ∈ scope.predicates, ¬ (s.kind = kind ∧ s.name = name)
  ambiguous : ∀ kind name n, scope.find kind name = .error (.ambiguousPredicate kind name n) ↔
    (scope.predicates.countP fun s => s.kind = kind ∧ s.name = name) = n ∧ 2 ≤ n
  names : ∀ name, name ∈ scope.names ↔ ∃ s ∈ scope.predicates, s.name = name
  names_increasing : scope.names.Pairwise fun a b => compare a b = .lt

/-- A listed schema is named as wanted. -/
theorem mem_filter_nameKey {l : List Schema} {kind : Kind} {name : String} {s : Schema} :
    s ∈ l.filter (fun s => s.nameKey = ⟨kind, name⟩) ↔ s ∈ l ∧ s.kind = kind ∧ s.name = name := by
  simp only [List.mem_filter, decide_eq_true_eq, Schema.nameKey, NameKey.mk.injEq]

/-- **Lookups agree with the listing.** However a registry came about, it and each view of it list
the schemas of the registry that are to be let through, in strictly increasing order of kind, name
and identifier. A schema is found by identifier when it is listed, and by kind and name when it is
the only one listed; otherwise the error says that there is none or how many there are. -/
theorem Restricts.isExact {scope : Scope} {schemas : List Schema} {allowed : String → Prop}
    (h : Restricts schemas scope allowed) : scope.IsExact schemas allowed where
  ids _ := h.mem_ids_iff
  known id wanted :=
    List.mem_map.1 (h.made.mem_ids_iff.1 (ids_subset scope (h.mem_ids_iff.2 wanted)))
  predicates _ := h.mem_predicates
  distinct := nodup_ids scope
  increasing := by
    rw [predicates_eq]
    exact scope.parent.increasing.filter _
  get _ _ := get_eq_ok_iff
  find kind name s := by
    obtain ⟨found, eq, perm⟩ := exists_find_eq scope kind name
    -- without repetition what is found is a singleton when it has one member
    have distinct : found.Nodup := perm.nodup_iff.2 ((nodup_ids scope).of_map.filter _)
    rw [eq, Schema.theOne_eq_ok_iff, ← List.perm_singleton,
      List.perm_ext_iff_of_nodup distinct (List.nodup_singleton s)]
    refine forall_congr' fun t => ?_
    rw [perm.mem_iff, mem_filter_nameKey, List.mem_singleton]
  unknown kind name := by
    obtain ⟨found, eq, perm⟩ := exists_find_eq scope kind name
    rw [eq, Schema.theOne_eq_unknown_iff, List.eq_nil_iff_forall_not_mem]
    refine forall_congr' fun t => ?_
    rw [perm.mem_iff, mem_filter_nameKey, not_and]
  ambiguous kind name n := by
    obtain ⟨found, eq, perm⟩ := exists_find_eq scope kind name
    rw [eq, Schema.theOne_eq_ambiguous_iff, perm.length_eq, ← List.countP_eq_length_filter]
    simp only [Schema.nameKey, NameKey.mk.injEq]
  names name := by
    cases scope with
    | registry r => exact Schema.mem_namesOf
    | view v => exact Schema.mem_namesOf
  names_increasing := by
    cases scope with
    | registry r => exact Schema.pairwise_namesOf _
    | view v => exact Schema.pairwise_namesOf _

end Scope

theorem Scope.Restricts.isExact_acquaintances :
    ∃ v, View.ofIds .acquaintances [FactSchema.person.id, RelSchema.knows.id] = .ok v ∧
      Restricts Registry.acquaintances.predicates (.view v)
        (· ∈ [FactSchema.person.id, RelSchema.knows.id]) ∧
      IsExact (.view v) Registry.acquaintances.predicates
        (· ∈ [FactSchema.person.id, RelSchema.knows.id]) := by
  obtain ⟨v, made, restricts⟩ := exists_view_knows
  exact ⟨v, made, restricts, restricts.isExact⟩

end Clausal
