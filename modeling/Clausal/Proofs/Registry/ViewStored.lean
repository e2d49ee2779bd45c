import Clausal.Proofs.Registry.Lookups
import Clausal.Proofs.Registry.Order

/-!
# Stored views are loaded when they are closed

Main statement: `View.loaded_iff_closed`. A view is stored as the list of what it lets through. When
it lets the endpoints through of each relation that it lets through, it lists the schemas of a
registry of its own (`View.narrowed`), which is loaded like any other. Otherwise the error is that a
relation has an endpoint that is hidden, and no other error is possible.
-/

namespace Clausal

/-! ### Scopes that list alike schemas -/

namespace Schema

theorem theOne_perm {kind : Kind} {name : String} {found found' : List Schema}
    (perm : found.Perm found') : theOne kind name found = theOne kind name found' := by
  match found with
  | [] => rw [List.nil_perm.1 perm]
  | [s] => rw [List.singleton_perm.1 perm]
  | s :: t :: rest =>
    match found' with
    | [] => cases List.perm_nil.1 perm
    | [_] => cases List.perm_singleton.1 perm
    | _ :: _ :: _ => simp only [theOne, perm.length_eq]

/-- Whether there is only one depends on their number. -/
theorem map_id_theOne {kind : Kind} {name : String} {found found' : List Schema}
    (alike : List.Forall₂ Alike found found') :
    (theOne kind name found).map id = (theOne kind name found').map id := by
  cases alike with
  | nil => rfl
  | cons first rest =>
    cases rest with
    | nil => exact congrArg Except.ok first.id
    | cons _ others => simp only [theOne, Except.map, List.length_cons, others.length_eq]

end Schema

namespace Scope

/-- What is found for a kind and name depends on the listing. -/
theorem find_eq (scope : Scope) (kind : Kind) (name : String) : scope.find kind name =
    Schema.theOne kind name (scope.predicates.filter fun s => s.nameKey = ⟨kind, name⟩) := by
  obtain ⟨found, eq, perm⟩ := exists_find_eq scope kind name
  exact eq.trans (Schema.theOne_perm perm)

theorem map_id_get (scope : Scope) (id : String) : (scope.get id).toOption.map Schema.id =
    if id ∈ scope.predicates.map Schema.id then some id else none := by
  cases found : scope.get id with
  | ok s =>
    obtain ⟨listed, rfl⟩ := get_eq_ok_iff.1 found
    exact (if_pos (List.mem_map_of_mem listed)).symm
  | error e =>
    refine (if_neg fun held => ?_).symm
    obtain ⟨s, hs⟩ := List.mem_map.1 held
    cases found.symm.trans (get_eq_ok_iff.2 hs)

section Alike

variable {scope scope' : Scope} (alike : List.Forall₂ Schema.Alike scope.predicates scope'.predicates)

include alike

theorem map_id_get_eq_of_alike (id : String) :
    (scope.get id).toOption.map Schema.id = (scope'.get id).toOption.map Schema.id := by
  rw [map_id_get, map_id_get, Schema.map_eq_of_alike (fun h => h.id) alike]

theorem map_id_find_eq_of_alike (kind : Kind) (name : String) :
    (scope.find kind name).map Schema.id = (scope'.find kind name).map Schema.id := by
  rw [find_eq, find_eq]
  apply Schema.map_id_theOne
  refine List.rel_filter (fun s t h => ?_) alike
  have same : s.nameKey = t.nameKey := congrArg₂ NameKey.mk h.kind h.name
  simp only [same]

end Alike

end Scope

namespace View

/-! ### Closed views -/

variable {v : View}

/-- The endpoints of the relations that are let through are let through. -/
def Closed (v : View) : Prop :=
  ∀ r : RelSchema, .rel r ∈ v.predicates → v.allows r.sub.id = true ∧ v.allows r.obj.id = true

theorem mem_predicates {s : Schema} :
    s ∈ v.predicates ↔ s ∈ v.parent.predicates ∧ v.allows s.id = true := List.mem_filter

/-- What is let through is listed. -/
theorem mem_map_id_predicates {id : String} (held : id ∈ v.parent.predicates.map Schema.id)
    (shown : v.allows id = true) : id ∈ v.predicates.map Schema.id := by
  obtain ⟨s, hs, rfl⟩ := List.mem_map.1 held
  exact List.mem_map_of_mem (mem_predicates.2 ⟨hs, shown⟩)

/-- The registry of what a closed view lets through. -/
def narrowed (v : View) (closed : v.Closed) : Registry where
  predicates := v.predicates
  increasing := v.parent.increasing.filter _
  ids_nodup := v.parent.ids_nodup.sublist (List.filter_sublist.map _)
  closed := by
    intro s hs id hid
    have held := v.parent.closed s (mem_predicates.1 hs).1 hid
    cases s with
    | fact f => exact absurd hid List.not_mem_nil
    | rel r =>
      obtain ⟨sub, obj⟩ := closed r hs
      rcases List.mem_pair.1 hid with rfl | rfl
      · exact mem_map_id_predicates held sub
      · exact mem_map_id_predicates held obj

/-- Fewer schemas have fewer texts to collide. -/
theorem collisionFree_narrowed (free : v.parent.CollisionFree) (closed : v.Closed) :
    (v.narrowed closed).CollisionFree := by
  have known : (v.narrowed closed).known ⊆ v.parent.known := by
    intro s hs
    obtain ⟨t, ht, mem⟩ := List.mem_flatMap.1 hs
    exact List.mem_flatMap.2 ⟨t, (mem_predicates.1 ht).1, mem⟩
  exact fun s hs t ht => free s (known hs) t (known ht)

/-- A registry holds what a view lets through: it is stored alike, lists alike schemas, and lookups
find schemas of the same identifiers. -/
structure IsHeldBy (v : View) (r : Registry) : Prop where
  stored : r.toPayload = (Scope.view v).toPayload
  predicates : List.Forall₂ Schema.Alike r.predicates v.predicates
  get : ∀ id, (r.get id).toOption.map Schema.id = (v.get id).toOption.map Schema.id
  /-- Where none or many are found, this is the same error. -/
  find : ∀ kind name, (r.find kind name).map Schema.id = (v.find kind name).map Schema.id

/-- What is stored of a closed view is loaded like the registry of what it lets through. -/
theorem exists_ofPayload_of_closed (normal : ∀ s ∈ v.parent.predicates, s.IsNormal)
    (free : v.parent.CollisionFree) (closed : v.Closed) :
    ∃ r, Registry.ofPayload (Scope.view v).toPayload = .ok r ∧ v.IsHeldBy r := by
  have free := collisionFree_narrowed free closed
  have normal : ∀ s ∈ (v.narrowed closed).predicates, s.IsNormal := fun s hs =>
    normal s (mem_predicates.1 hs).1
  obtain ⟨r, loaded, reloaded⟩ := Registry.exists_ofPayload_toPayload free normal
  have alike := Registry.alike_of_reload free normal reloaded
  have listed : List.Forall₂ Schema.Alike (Scope.registry r).predicates (Scope.view v).predicates :=
    alike
  exact ⟨r, loaded, Registry.ofSchemas_eq_of_alike alike, alike,
    Scope.map_id_get_eq_of_alike listed, Scope.map_id_find_eq_of_alike listed⟩

/-! ### Views that are not closed -/

/-- The entity schemas that are let through. -/
def facts (v : View) : List Schema := v.predicates.filter (·.kind == .fact)

/-- An error says that a relation that is let through has an endpoint that is not. -/
inductive Misses (v : View) : SchemaError → Prop
  | endpoint {r : RelSchema} {id : String} (shown : .rel r ∈ v.predicates)
      (needed : id ∈ [r.sub.id, r.obj.id]) (hidden : ¬ v.allows id = true) :
      Misses v (.unresolvedEndpoint r.name id)

theorem nodup_facts (v : View) : (v.facts.map Schema.id).Nodup :=
  v.parent.ids_nodup.sublist ((List.filter_sublist.trans List.filter_sublist).map _)

theorem allows_of_withId? {id : String} {s : Schema} (h : Schema.withId? v.facts id = some s) :
    v.allows id = true := by
  obtain ⟨mem, rfl⟩ := Registry.mem_of_withId? h
  exact (mem_predicates.1 (List.mem_filter.1 mem).1).2

/-- For an endpoint that is let through a schema is found that agrees with it. -/
theorem exists_withId?_of_allows (free : v.parent.CollisionFree) {s : Schema}
    (shown : s ∈ v.predicates) {f : FactSchema} (inside : .fact f ∈ s.endpoints)
    (allowed : v.allows f.id = true) :
    ∃ g, Schema.withId? v.facts f.id = some (.fact g) ∧ g.Agrees f := by
  obtain ⟨g, held, agrees⟩ := Registry.exists_agrees free (mem_predicates.1 shown).1 inside
  have same : (Schema.fact g).id = f.id := agrees.id
  have listed : .fact g ∈ v.facts :=
    List.mem_filter.2 ⟨mem_predicates.2 ⟨held, same ▸ allowed⟩, rfl⟩
  exact ⟨g, (Registry.withId?_eq_some_iff v.nodup_facts).2 ⟨listed, same⟩, agrees⟩

/-- A relation is loaded when its endpoints are let through; otherwise one that is not is the error. -/
theorem ofPayload_rel (normal : ∀ s ∈ v.parent.predicates, s.IsNormal)
    (free : v.parent.CollisionFree) {r : RelSchema} (shown : .rel r ∈ v.predicates) :
    (v.allows r.sub.id = true ∧ v.allows r.obj.id = true ∧
      ∃ s, Schema.ofPayload (.rel r.toPayload) (Schema.withId? v.facts) = .ok s) ∨
    ∃ e, v.Misses e ∧ Schema.ofPayload (.rel r.toPayload) (Schema.withId? v.facts) = .error e := by
  have missing {id : String} (hidden : ¬ v.allows id = true) : Schema.withId? v.facts id = none :=
    Option.eq_none_iff_forall_ne_some.2 fun _ found => hidden (allows_of_withId? found)
  -- the subject is resolved before the object, and is the one that the error names
  by_cases hsub : v.allows r.sub.id = true
  · obtain ⟨sub, foundSub, agreesSub⟩ :=
      exists_withId?_of_allows free shown (f := r.sub) List.mem_cons_self hsub
    by_cases hobj : v.allows r.obj.id = true
    · obtain ⟨obj, foundObj, agreesObj⟩ := exists_withId?_of_allows free shown (f := r.obj)
        (List.mem_cons_of_mem _ List.mem_cons_self) hobj
      have normal : r.IsNormal := normal (.rel r) (mem_predicates.1 shown).1
      exact .inl ⟨hsub, hobj, _, Schema.ofPayload_rel normal agreesSub agreesObj foundSub foundObj⟩
    · refine .inr ⟨_, .endpoint shown (.tail _ (.head _)) hobj, ?_⟩
      rw [Schema.ofPayload, Schema.ofContent, RelSchema.toPayload]
      dsimp only
      rw [Schema.storedEndpoint, foundSub, ok_bind, Schema.storedEndpoint, missing hobj]
      rfl
  · refine .inr ⟨_, .endpoint shown (.head _) hsub, ?_⟩
    rw [Schema.ofPayload, Schema.ofContent, RelSchema.toPayload]
    dsimp only
    rw [Schema.storedEndpoint, missing hsub]
    rfl

theorem filter_rels (v : View) : (Scope.view v).toPayload.predicates.filter (·.kind == .rel) =
    (v.predicates.filter (·.kind == .rel)).map Schema.toPayload :=
  Registry.filter_toPayload v.predicates .rel

/-- The stored relations of a view are those that it lets through. -/
theorem mem_rels {q : SchemaPayload} :
    q ∈ (Scope.view v).toPayload.predicates.filter (·.kind == .rel) ↔
      ∃ r : RelSchema, .rel r ∈ v.predicates ∧ q = .rel r.toPayload := by
  rw [filter_rels, List.mem_map]
  constructor
  · rintro ⟨s, hs, rfl⟩
    obtain ⟨shown, isRel⟩ := List.mem_filter.1 hs
    cases s with
    | fact f => exact absurd isRel nofun
    | rel r => exact ⟨r, shown, rfl⟩
  · rintro ⟨r, shown, rfl⟩
    exact ⟨.rel r, List.mem_filter.2 ⟨shown, rfl⟩, rfl⟩

/-- What loading makes of the relations of a view. -/
def loadRels (v : View) : Except SchemaError (List Schema) :=
  ((Scope.view v).toPayload.predicates.filter (·.kind == .rel)).mapM fun q =>
    Schema.ofPayload q (Schema.withId? v.facts)

section NotClosed

variable (normal : ∀ s ∈ v.parent.predicates, s.IsNormal) (free : v.parent.CollisionFree)

include normal free

/-- The relations of a view are loaded only when it is closed. -/
theorem closed_of_loadRels {rels : List Schema} (h : v.loadRels = .ok rels) : v.Closed := by
  intro r shown
  obtain ⟨s, loaded⟩ := exists_of_mapM h _ (mem_rels.2 ⟨r, shown, rfl⟩)
  rcases ofPayload_rel normal free shown with ⟨sub, obj, -⟩ | ⟨e, -, failed⟩
  · exact ⟨sub, obj⟩
  · cases loaded.symm.trans failed

/-- Endpoints that are hidden are all that relations of a view can lack. -/
theorem failsOnly_loadRels : FailsOnly v.Misses v.loadRels := by
  refine .mapM fun q hq => ?_
  obtain ⟨r, shown, rfl⟩ := mem_rels.1 hq
  rcases ofPayload_rel normal free shown with ⟨-, -, s, loaded⟩ | ⟨e, misses, failed⟩
  · exact loaded ▸ .ok
  · exact failed ▸ .error misses

/-- Entity schemas are loaded first, and these are all loaded. -/
theorem exists_error_of_not_closed (notClosed : ¬ v.Closed) :
    ∃ e, v.Misses e ∧ Registry.ofPayload (Scope.view v).toPayload = .error e := by
  cases rels : v.loadRels with
  | ok _ => exact absurd (closed_of_loadRels normal free rels) notClosed
  | error e =>
    refine ⟨e, failsOnly_loadRels normal free e rels, ?_⟩
    have facts : Registry.loadFacts []
        ((Scope.view v).toPayload.predicates.filter (·.kind == .fact)) = .ok v.facts :=
      Registry.loadFacts_ofSchemas (fun s hs => normal s (mem_predicates.1 hs).1)
        (v.parent.ids_nodup.sublist (List.filter_sublist.map _))
    unfold Registry.ofPayload
    rw [facts, ok_bind]
    exact congrArg (· >>= _) rels

end NotClosed

/-- **Stored views are loaded exactly when they are closed.** Then the registry that is loaded holds
what the view lets through, and otherwise a relation of the view has an endpoint that is outside of
it. -/
theorem loaded_iff_closed (built : v.parent.Built) (free : v.parent.CollisionFree) :
    ((∃ r, Registry.ofPayload (Scope.view v).toPayload = .ok r) ↔ v.Closed) ∧
    (∀ r, Registry.ofPayload (Scope.view v).toPayload = .ok r → v.IsHeldBy r) ∧
    ∀ e, Registry.ofPayload (Scope.view v).toPayload = .error e → v.Misses e := by
  by_cases closed : v.Closed
  · obtain ⟨r, loaded, held⟩ := exists_ofPayload_of_closed built.isNormal free closed
    refine ⟨iff_of_true ⟨r, loaded⟩ closed, fun r' again => ?_, fun e failed => ?_⟩
    · cases loaded.symm.trans again
      exact held
    · cases loaded.symm.trans failed
  · obtain ⟨e, misses, failed⟩ := exists_error_of_not_closed built.isNormal free closed
    refine ⟨iff_of_false (fun ⟨r, loaded⟩ => ?_) closed, fun r loaded => ?_, fun e' again => ?_⟩
    · cases loaded.symm.trans failed
    · cases loaded.symm.trans failed
    · cases failed.symm.trans again
      exact misses

/-! ### People who are described again, seen in two ways -/

/-- Some of the people who are described again and of who knows whom. -/
def ofRedescribed (ids : List String) : View := .restrict .redescribed ids.contains

theorem allows_ofRedescribed {ids : List String} {id : String} :
    (ofRedescribed ids).allows id = true ↔
      id ∈ [FactSchema.person.id, RelSchema.knows.id] ∧ id ∈ ids := by
  have held : id ∈ Registry.redescribed.ids ↔ id ∈ [FactSchema.person.id, RelSchema.knows.id] :=
    Registry.redescribed.madeOf_predicates.mem_ids_iff
  refine List.contains_iff_mem.trans (List.mem_filter.trans ?_)
  exact and_congr held List.contains_iff_mem

theorem eq_knows_of_mem {ids : List String} {r : RelSchema}
    (shown : .rel r ∈ (ofRedescribed ids).predicates) : r = .knows := by
  rcases List.mem_pair.1 (mem_predicates.1 shown).1 with same | same
  · cases same
  · exact Schema.rel.inj same

/-- Both schemas are loaded when both are let through, and the relation alone is not: there are no
people that it could be between. -/
theorem loaded_iff_closed_redescribed :
    Registry.redescribed.Built ∧ Registry.redescribed.CollisionFree ∧
    (∃ r, Registry.ofPayload (Scope.view (ofRedescribed
        [FactSchema.person.id, RelSchema.knows.id])).toPayload = .ok r ∧
      (ofRedescribed [FactSchema.person.id, RelSchema.knows.id]).IsHeldBy r) ∧
    Registry.ofPayload (Scope.view (ofRedescribed [RelSchema.knows.id])).toPayload =
      .error (.unresolvedEndpoint "knows" FactSchema.person.id) := by
  have built := Registry.built_redescribed
  have free := Registry.collisionFree_redescribed
  refine ⟨built, free, ?_, ?_⟩
  · have closed : (ofRedescribed [FactSchema.person.id, RelSchema.knows.id]).Closed := by
      intro r shown
      cases eq_knows_of_mem shown
      exact ⟨allows_ofRedescribed.2 ⟨.head _, .head _⟩, allows_ofRedescribed.2 ⟨.head _, .head _⟩⟩
    obtain ⟨loaded, held, -⟩ := loaded_iff_closed (v := ofRedescribed _) built free
    obtain ⟨r, h⟩ := loaded.2 closed
    exact ⟨r, h, held r h⟩
  · have apart : FactSchema.person.id ∉ [RelSchema.knows.id] :=
      (List.nodup_cons.1 Registry.redescribed.ids_nodup).1
    obtain ⟨loaded, -, failed⟩ :=
      loaded_iff_closed (v := ofRedescribed [RelSchema.knows.id]) built free
    cases outcome : Registry.ofPayload (Scope.view (ofRedescribed [RelSchema.knows.id])).toPayload with
    | ok r =>
      have shown : .rel .knows ∈ (ofRedescribed [RelSchema.knows.id]).predicates :=
        mem_predicates.2 ⟨.tail _ (.head _), allows_ofRedescribed.2 ⟨.tail _ (.head _), .head _⟩⟩
      have people := (loaded.1 ⟨r, outcome⟩ _ shown).1
      exact absurd (allows_ofRedescribed.1 people).2 apart
    | error e =>
      obtain ⟨shown, needed, -⟩ := failed e outcome
      cases eq_knows_of_mem shown
      rcases List.mem_pair.1 needed with rfl | rfl <;> rfl

end View

end Clausal
