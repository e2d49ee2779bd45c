import Clausal.Proofs.Registry.Scopes
import Clausal.Proofs.Registry.Embedded

/-!
# Registries in any order

Main statement: `Registry.same_in_any_order`. A registry is the one of some schemas when it lists
them up to their order (`Registry.ofList_eq_ok_iff`), so their order plays no part. They can also be
inserted one after the other, if the endpoints of each relation come before it; and stored schemas can
be reordered, since loading takes entity schemas first and finds them by identifiers that differ.
-/

namespace Clausal

namespace Registry

/-! ### Registries of lists -/

/-- The registry of some schemas is the one that lists them, up to their order. -/
theorem ofList_eq_ok_iff {schemas : List Schema} {r : Registry} :
    ofList schemas = .ok r ↔ r.predicates.Perm schemas := by
  constructor
  · intro h
    rw [predicates_of_ofList h]
    exact Schema.perm_listed schemas
  · intro perm
    have distinct : (schemas.map Schema.id).Nodup := r.ids_nodup.perm (perm.map _)
    have closed : ∀ s ∈ schemas, s.endpointIds ⊆ schemas.map Schema.id := by
      intro s hs id hid
      exact (perm.map _).mem_iff.1 (r.closed s (perm.mem_iff.2 hs) hid)
    obtain ⟨r', made⟩ := exists_ofList distinct closed
    have same : r'.predicates = r.predicates :=
      (predicates_of_ofList made).trans (listed_eq_predicates r perm.symm)
    rw [made, eq_of_predicates same]

theorem insert_eq_ok_iff {r r' : Registry} {s : Schema} :
    r.insert s = .ok r' ↔ r'.predicates.Perm (r.predicates ++ [s]) := by
  rw [insert, ofList_eq_ok_iff]
  have sorted := (Schema.perm_sortById r.predicates).append_right [s]
  exact ⟨fun h => h.trans sorted, fun h => h.trans sorted.symm⟩

/-! ### Insertion in turn -/

/-- The endpoints of each relation come before it, or are among the identifiers that are held. -/
def EndpointsFirst (held : List String) : List Schema → Prop
  | [] => True
  | s :: rest => s.endpointIds ⊆ held ∧ EndpointsFirst (held ++ [s.id]) rest

/-- One more schema can be inserted when its identifier is new and its endpoints are there. -/
theorem exists_insert {r : Registry} {s : Schema} (new : s.id ∉ r.predicates.map Schema.id)
    (known : s.endpointIds ⊆ r.predicates.map Schema.id) : ∃ r', r.insert s = .ok r' := by
  have perm := Schema.perm_sortById r.predicates
  have ids := perm.map Schema.id
  apply exists_ofList
  · rw [List.map_append, List.map_singleton]
    apply List.nodup_append.2
    refine ⟨r.ids_nodup.perm ids.symm, List.nodup_singleton _, ?_⟩
    intro id hid _ same
    rw [List.mem_singleton.1 same]
    exact fun eq => new (ids.mem_iff.1 (eq ▸ hid))
  · intro t ht id hid
    rw [List.map_append]
    apply List.mem_append_left
    rcases List.mem_append.1 ht with ht | ht
    · exact ids.mem_iff.2 (r.closed t (perm.mem_iff.1 ht) hid)
    · exact ids.mem_iff.2 (known (List.mem_singleton.1 ht ▸ hid))

theorem EndpointsFirst.mono {order : List Schema} :
    ∀ {held held' : List String}, EndpointsFirst held order → held ⊆ held' →
      EndpointsFirst held' order := by
  induction order with
  | nil => exact fun _ _ => trivial
  | cons s rest ih =>
    intro held held' first more
    refine ⟨fun id hid => more (first.1 hid), ih first.2 ?_⟩
    intro id hid
    rcases List.mem_append.1 hid with hid | hid
    · exact List.mem_append_left _ (more hid)
    · exact List.mem_append_right _ hid

/-- Schemas that are inserted in turn into a registry give the registry that holds all of them, by
induction on those that are left. -/
theorem foldlM_insert {r : Registry} {order : List Schema} :
    ∀ {held : Registry}, r.predicates.Perm (held.predicates ++ order) →
      EndpointsFirst (held.predicates.map Schema.id) order → order.foldlM insert held = .ok r := by
  induction order with
  | nil =>
    intro held perm _
    have made : ofList held.predicates = .ok r :=
      ofList_eq_ok_iff.2 (perm.trans (.of_eq (List.append_nil _)))
    exact held.ofList_predicates.symm.trans made
  | cons s rest ih =>
    intro held perm first
    obtain ⟨known, later⟩ := first
    have distinct := r.ids_nodup.perm (perm.map Schema.id)
    rw [List.map_append, List.map_cons] at distinct
    -- the registry has its identifiers once, so that of the next schema is not held yet
    have new : s.id ∉ held.predicates.map Schema.id := by
      intro mem
      exact (List.nodup_append.1 distinct).2.2 _ mem _ List.mem_cons_self rfl
    obtain ⟨next, inserted⟩ := exists_insert new known
    have listed := insert_eq_ok_iff.1 inserted
    rw [List.foldlM_cons, inserted, ok_bind]
    apply ih
    · refine perm.trans ?_
      rw [List.append_cons]
      exact listed.symm.append_right rest
    · refine later.mono fun id hid => ?_
      rw [(listed.map Schema.id).mem_iff, List.map_append]
      exact hid

/-! ### Registries of payloads -/

theorem withId?_eq_some_iff {schemas : List Schema} (distinct : (schemas.map Schema.id).Nodup)
    {id : String} {s : Schema} :
    Schema.withId? schemas id = some s ↔ s ∈ schemas ∧ s.id = id := by
  constructor
  · exact mem_of_withId?
  · rintro ⟨hs, rfl⟩
    cases found : Schema.withId? schemas s.id with
    | none => exact absurd (List.find?_eq_none.1 found s hs) (by simp)
    | some t =>
      obtain ⟨ht, same⟩ := mem_of_withId? found
      rw [List.inj_on_of_nodup_map distinct ht hs same]

theorem withId?_perm {schemas schemas' : List Schema} (perm : schemas.Perm schemas')
    (distinct : (schemas.map Schema.id).Nodup) :
    Schema.withId? schemas = Schema.withId? schemas' := by
  funext id
  apply Option.ext
  intro s
  rw [withId?_eq_some_iff distinct, withId?_eq_some_iff (distinct.perm (perm.map _)), perm.mem_iff]

/-- Entity schemas are loaded when each is and their identifiers differ. -/
theorem loadFacts_eq_ok_iff {payloads : List SchemaPayload} {facts : List Schema} :
    ∀ {loaded : List Schema}, (loaded.map Schema.id).Nodup →
      (loadFacts loaded payloads = .ok facts ↔
        ∃ new, payloads.mapM (Schema.ofPayload · fun _ => none) = .ok new ∧
          ((loaded ++ new).map Schema.id).Nodup ∧ loaded ++ new = facts) := by
  induction payloads with
  | nil =>
    intro loaded distinct
    constructor
    · intro h
      cases h
      exact ⟨[], rfl, by simpa using distinct, List.append_nil _⟩
    · rintro ⟨new, h, -, rfl⟩
      obtain rfl : [] = new := Except.ok.inj h
      rw [List.append_nil]
      rfl
  | cons p rest ih =>
    intro loaded distinct
    -- the loader looks for one schema at a time, the statement has them all at once
    have fresh_iff {s : Schema} :
        loaded.any (·.id == s.id) = true ↔ ¬ ((loaded ++ [s]).map Schema.id).Nodup := by
      simp [List.nodup_append, distinct]
    constructor
    · intro h
      obtain ⟨s, first, h⟩ := bind_eq_ok.1 h
      split at h
      case isTrue => cases h
      case isFalse fresh =>
        obtain ⟨new, others, apart, rfl⟩ := (ih (not_not.1 (fresh_iff.not.1 fresh))).1 h
        refine ⟨s :: new, mapM_cons_eq_ok.2 ⟨s, new, first, others, rfl⟩, ?_, ?_⟩
        · rwa [List.append_cons]
        · rw [List.append_cons]
    · rintro ⟨_, h, apart, rfl⟩
      obtain ⟨s, new, first, others, rfl⟩ := mapM_cons_eq_ok.1 h
      rw [List.append_cons] at apart
      have fresh : ((loaded ++ [s]).map Schema.id).Nodup :=
        apart.sublist ((List.sublist_append_left _ _).map _)
      rw [loadFacts, first, ok_bind, if_neg (fresh_iff.not.2 (not_not.2 fresh))]
      exact (ih fresh).2 ⟨new, others, apart, (List.append_cons ..).symm⟩

theorem exists_loadFacts_of_perm {payloads payloads' : List SchemaPayload}
    (perm : payloads.Perm payloads') {facts : List Schema} (h : loadFacts [] payloads = .ok facts) :
    (facts.map Schema.id).Nodup ∧
      ∃ facts', loadFacts [] payloads' = .ok facts' ∧ facts.Perm facts' := by
  have none : (([] : List Schema).map Schema.id).Nodup := .nil
  obtain ⟨new, made, distinct, rfl⟩ := (loadFacts_eq_ok_iff none).1 h
  obtain ⟨new', made', perm⟩ := exists_mapM_of_perm perm made
  have distinct' := distinct.perm (perm.map Schema.id)
  exact ⟨distinct, new', (loadFacts_eq_ok_iff none).2 ⟨new', made', distinct', rfl⟩, perm⟩

/-- Reordered stored schemas are loaded as the same schemas, reordered: the relations among them find
the same entity schemas. -/
theorem exists_loadAll_of_perm {version : Option Nat} {payloads payloads' : List SchemaPayload}
    (perm : payloads.Perm payloads') {schemas : List Schema}
    (h : loadAll ⟨version, payloads⟩ = .ok schemas) :
    ∃ schemas', loadAll ⟨version, payloads'⟩ = .ok schemas' ∧ schemas.Perm schemas' := by
  obtain ⟨facts, loaded, h⟩ := bind_eq_ok.1 h
  obtain ⟨rels, built, h⟩ := bind_eq_ok.1 h
  cases h
  obtain ⟨distinct, facts', loaded', permFacts⟩ := exists_loadFacts_of_perm (perm.filter _) loaded
  rw [withId?_perm permFacts distinct] at built
  obtain ⟨rels', built', permRels⟩ := exists_mapM_of_perm (perm.filter _) built
  refine ⟨Schema.sortById facts' ++ rels', ?_, ?_⟩
  · rw [loadAll, loaded', ok_bind, built']
    rfl
  · have sorted := (Schema.perm_sortById facts).trans
      (permFacts.trans (Schema.perm_sortById facts').symm)
    exact sorted.append permRels

theorem ofPayload_eq_ok_iff {p : RegistryPayload} {r : Registry} :
    ofPayload p = .ok r ↔
      p.version.getD RegistryPayload.currentVersion = RegistryPayload.currentVersion ∧
      ∃ schemas, loadAll p = .ok schemas ∧ r.predicates.Perm schemas := by
  constructor
  · intro h
    obtain ⟨schemas, loaded, made⟩ := ofPayload_eq_ok h
    refine ⟨?_, schemas, loaded, ofList_eq_ok_iff.1 made⟩
    by_contra other
    simp [ofPayload, other, throw, throwThe, MonadExceptOf.throw, bind, Except.bind] at h
  · rintro ⟨current, schemas, loaded, perm⟩
    obtain ⟨facts, stored, loaded⟩ := bind_eq_ok.1 loaded
    obtain ⟨rels, built, loaded⟩ := bind_eq_ok.1 loaded
    cases loaded
    rw [ofPayload]
    dsimp only
    rw [current, if_neg (not_not.2 rfl), stored, ok_bind, built, ok_bind]
    exact ofList_eq_ok_iff.2 perm

theorem ofPayload_of_perm {version : Option Nat} {payloads payloads' : List SchemaPayload}
    (perm : payloads.Perm payloads') {r : Registry} (h : ofPayload ⟨version, payloads⟩ = .ok r) :
    ofPayload ⟨version, payloads'⟩ = .ok r := by
  obtain ⟨current, schemas, loaded, listed⟩ := ofPayload_eq_ok_iff.1 h
  obtain ⟨schemas', loaded', perm⟩ := exists_loadAll_of_perm perm loaded
  exact ofPayload_eq_ok_iff.2 ⟨current, schemas', loaded', listed.trans perm⟩

/-- **Registries do not depend on an order.** Reordered schemas give the same registry, or none at
all; so do reordered schemas of a payload. When some schemas are those of a registry, inserting them
in turn gives that registry, in any order in which the endpoints of each relation come before it. -/
theorem same_in_any_order :
    (∀ schemas schemas' : List Schema, schemas.Perm schemas' →
      (ofList schemas).toOption = (ofList schemas').toOption) ∧
    (∀ (schemas order : List Schema) (r : Registry), ofList schemas = .ok r → order.Perm schemas →
      EndpointsFirst [] order → order.foldlM insert empty = .ok r) ∧
    ∀ (version : Option Nat) (payloads payloads' : List SchemaPayload), payloads.Perm payloads' →
      (ofPayload ⟨version, payloads⟩).toOption = (ofPayload ⟨version, payloads'⟩).toOption := by
  refine ⟨?_, ?_, ?_⟩
  · intro schemas schemas' perm
    apply toOption_eq_of_iff
    intro r
    rw [ofList_eq_ok_iff, ofList_eq_ok_iff]
    exact ⟨fun h => h.trans perm, fun h => h.trans perm.symm⟩
  · intro schemas order r made perm first
    exact foldlM_insert ((ofList_eq_ok_iff.1 made).trans perm.symm) first
  · intro version payloads payloads' perm
    apply toOption_eq_of_iff
    intro r
    exact ⟨ofPayload_of_perm perm, ofPayload_of_perm perm.symm⟩

/-! ### People and two relations in another order -/

/-- The acquaintances, with the relations the other way round. -/
def undatedFirst : List Schema := [.fact .person, .rel .undated, .rel .knows]

theorem perm_undatedFirst : undatedFirst.Perm acquaintances.predicates :=
  .cons _ (.swap _ _ _)

theorem endpointsFirst_undatedFirst : EndpointsFirst [] undatedFirst := by
  have inside : [FactSchema.person.id, FactSchema.person.id] ⊆ [FactSchema.person.id] := by simp
  refine ⟨List.nil_subset _, inside, ?_, trivial⟩
  exact fun id hid => List.mem_append_left _ (inside hid)

theorem same_in_any_order_acquaintances :
    undatedFirst.Perm acquaintances.predicates ∧ EndpointsFirst [] undatedFirst ∧
    (ofList undatedFirst).toOption = some acquaintances ∧
    undatedFirst.foldlM insert empty = .ok acquaintances ∧
    ∃ r, (ofPayload ⟨some 1, redescribed.toPayload.predicates.reverse⟩).toOption = some r := by
  obtain ⟨lists, inserted, payloads⟩ := same_in_any_order
  have perm := perm_undatedFirst
  have first := endpointsFirst_undatedFirst
  have made := acquaintances.ofList_predicates
  refine ⟨perm, first, ?_, inserted _ _ _ made perm first, ?_⟩
  · rw [lists _ _ perm, made]
    rfl
  · obtain ⟨r, loaded, -⟩ :=
      exists_ofPayload_toPayload collisionFree_redescribed built_redescribed.isNormal
    refine ⟨r, ?_⟩
    rw [payloads _ _ _ (List.reverse_perm _)]
    exact congrArg Except.toOption loaded

end Registry

end Clausal
