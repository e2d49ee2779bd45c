import Mathlib.Data.List.Nodup
import Clausal.Proofs.Registry.Built
import Clausal.Proofs.Schema.Payload
import Clausal.Proofs.Schema.Spelled

/-!
# Stored registries are loaded again

Main statement: `Registry.ofText_toText`. A registry holds the endpoints of its relations, but an
entity schema inside a relation need not be the one that the registry holds under its identifier:
description and merge policy may differ. Loading puts the one of the registry into the relation.
When no two texts behind identifiers have one digest, nothing else changes.
-/

namespace Clausal

open Decode Decode.Members Json

/-! ### Payloads -/

namespace RegistryPayload

theorem decode_reads (p : RegistryPayload) (version : ∀ n ∈ p.version, n < UInt32.size)
    (below : ∀ q ∈ p.predicates, ∀ n ∈ q.arity, n < UInt64.size) :
    RegistryPayload.decode.Reads p.toJson p := by
  intro r
  have predicates := list_reads fun q hq => SchemaPayload.decode_reads q (below q hq)
  rw [RegistryPayload.decode, toJson, record_of_sublist (keys_member?_append _ _ (.refl _)) (by decide)
    (by decide)]
  simp only [bind, Except.bind, pure, Except.pure]
  rw [optional_ok (x := p.version) (f := ofNat) ?_ fun n hn =>
      ⟨natBelow_reads "u32" (version n hn), num_ne_null _⟩, required_ok ?_ predicates]
  all_goals simp [List.lookup_append, List.lookup_cons, lookup_member?]

theorem fits (p : RegistryPayload) (version : ∀ n ∈ p.version, n < UInt32.size)
    (below : ∀ q ∈ p.predicates, ∀ n ∈ q.arity, n < UInt64.size) :
    p.toJson.Fits Document.depthLimit := by
  have versions : ∀ n ∈ p.version, (ofNat n).Fits 126 := fun n hn =>
    fits_ofNat _ ((version n hn).trans (by decide))
  have predicates : (arr (p.predicates.map SchemaPayload.toJson)).Fits 126 :=
    fits_arr_map fun q hq => q.fits 122 (below q hq)
  refine fits_obj ?_
  simp only [List.forall_mem_append, forall_mem_member?_map, List.forall_mem_cons, predicates,
    List.not_mem_nil, false_implies, implies_true, and_true]
  exact versions

end RegistryPayload

/-! ### Schemas that are loaded again -/

namespace Schema

/-- Schemas that agree in all but description and merge policy of the entity schemas inside. -/
structure Alike (s t : Schema) : Prop where
  id : s.id = t.id
  name : s.name = t.name
  signature : s.signature = t.signature
  keyFields : s.keyFields = t.keyFields
  description : s.description = t.description
  mergePolicy : s.mergePolicy = t.mergePolicy
  /-- Among others endpoints and props. -/
  stored : s.toPayload = t.toPayload

theorem Alike.refl (s : Schema) : s.Alike s := ⟨rfl, rfl, rfl, rfl, rfl, rfl, rfl⟩

/-- What alike schemas have in common is listed alike. -/
theorem map_eq_of_alike {α : Type} {f : Schema → α} (same : ∀ {s t : Schema}, s.Alike t → f s = f t)
    {schemas schemas' : List Schema} (alike : List.Forall₂ Alike schemas schemas') :
    schemas.map f = schemas'.map f := by
  induction alike with
  | nil => rfl
  | cons first _ ih => rw [List.map_cons, List.map_cons, same first, ih]

theorem Alike.endpointIds {s t : Schema} (h : s.Alike t) : s.endpointIds = t.endpointIds := by
  have := h.stored
  cases s with
  | fact f =>
    cases t with
    | fact g => rfl
    | rel r => cases this
  | rel r =>
    cases t with
    | fact f => cases this
    | rel r' =>
      have := SchemaPayload.rel.inj this
      have sub : r.sub.id = r'.sub.id := congrArg RelPayload.subSchemaId this
      have obj : r.obj.id = r'.obj.id := congrArg RelPayload.objSchemaId this
      rw [Schema.endpointIds, Schema.endpointIds, sub, obj]

theorem Alike.kind {s t : Schema} (h : s.Alike t) : s.kind = t.kind := by
  have := h.stored
  cases s <;> cases t <;> first | rfl | cases this

theorem Alike.listingOrder {s s' t t' : Schema} (h : s.Alike s') (h' : t.Alike t') :
    listingOrder s t = listingOrder s' t' := by
  simp only [Schema.listingOrder, compareLex, compareOn, h.kind, h.name, h.id, h'.kind, h'.name, h'.id]

theorem alike_rebase {r : RelSchema} {sub obj : FactSchema} (hs : sub.Agrees r.sub)
    (ho : obj.Agrees r.obj) : Alike (.rel (r.rebase hs ho)) (.rel r) where
  id := rfl
  name := rfl
  signature := by
    simp only [signature, RelSchema.signature, RelSchema.rebase, RelSchema.argsOf,
      RelSchema.endpointArgs_of_agrees hs, RelSchema.endpointArgs_of_agrees ho]
  keyFields := congrArg RelPayload.keyFields (RelSchema.toPayload_rebase hs ho)
  description := rfl
  mergePolicy := rfl
  stored := congrArg SchemaPayload.rel (RelSchema.toPayload_rebase hs ho)

end Schema

namespace Registry

/-- The schemas of a registry and the entity schemas inside them. -/
def known (r : Registry) : List Schema := r.predicates.flatMap fun s => s :: s.endpoints

/-- No two texts behind the identifiers of a registry have one digest. -/
def CollisionFree (r : Registry) : Prop :=
  ∀ s ∈ r.known, ∀ t ∈ r.known,
    Identifier.ofText s.identityText = Identifier.ofText t.identityText →
      s.identityText = t.identityText

theorem mem_known {r : Registry} {s : Schema} (h : s ∈ r.predicates) : s ∈ r.known :=
  List.mem_flatMap.2 ⟨s, h, List.mem_cons_self⟩

/-- The entity schemas of a registry, in their order. -/
def facts (r : Registry) : List Schema := r.predicates.filter (·.kind == .fact)

theorem withId?_facts {r : Registry} {f : FactSchema} (h : .fact f ∈ r.predicates) :
    Schema.withId? r.facts f.id = some (.fact f) := by
  have mem : .fact f ∈ r.facts := List.mem_filter.2 ⟨h, rfl⟩
  unfold Schema.withId?
  cases found : r.facts.find? (·.id == f.id) with
  | none => exact absurd (List.find?_eq_none.1 found _ mem) (by simp [Schema.id])
  | some s =>
    have same : s.id = f.id := by simpa using List.find?_some found
    have held := (List.mem_filter.1 (List.mem_of_find?_eq_some found)).1
    exact congrArg some (List.inj_on_of_nodup_map r.ids_nodup held h same)

/-- Under the identifier of an entity schema inside a relation the registry holds one that agrees
with it. -/
theorem exists_agrees {r : Registry} (free : r.CollisionFree) {s : Schema} (hs : s ∈ r.predicates)
    {f : FactSchema} (inside : .fact f ∈ s.endpoints) :
    ∃ g, .fact g ∈ r.predicates ∧ g.Agrees f := by
  have needed : f.id ∈ s.endpointIds := by
    cases s with
    | fact _ => exact absurd inside List.not_mem_nil
    | rel rel =>
      rcases List.mem_cons.1 inside with eq | inside
      · exact Schema.fact.inj eq ▸ List.mem_cons_self
      · exact Schema.fact.inj (List.mem_singleton.1 inside) ▸ List.mem_cons_of_mem _ List.mem_cons_self
  obtain ⟨t, ht, same⟩ := List.mem_map.1 (r.closed s hs needed)
  have inKnown : .fact f ∈ r.known := List.mem_flatMap.2 ⟨s, hs, List.mem_cons_of_mem _ inside⟩
  -- one digest is one text here, and the text tells the kind
  have text := free t (mem_known ht) (.fact f) inKnown
    (by rw [← t.id_eq_ofText, ← Schema.id_eq_ofText]; exact same)
  cases t with
  | fact g => exact ⟨g, ht, FactSchema.agrees_of_identityText text⟩
  | rel g => exact absurd text.symm (Schema.identityText_ne f g)

/-- What loading makes of a schema of the registry. -/
def reload (r : Registry) (s : Schema) : Schema :=
  (Schema.ofPayload s.toPayload (Schema.withId? r.facts)).toOption.getD s

theorem reload_spec {r : Registry} (free : r.CollisionFree)
    (normal : ∀ s ∈ r.predicates, s.IsNormal) {s : Schema} (hs : s ∈ r.predicates) :
    Schema.ofPayload s.toPayload (Schema.withId? r.facts) = .ok (r.reload s) ∧
      (r.reload s).Alike s := by
  obtain ⟨t, loaded, alike⟩ : ∃ t, Schema.ofPayload s.toPayload (Schema.withId? r.facts) = .ok t ∧
      t.Alike s := by
    cases s with
    | fact f => exact ⟨.fact f, Schema.ofPayload_fact (normal _ hs) _, .refl _⟩
    | rel rel =>
      obtain ⟨sub, subHeld, hsub⟩ := exists_agrees free hs (f := rel.sub) List.mem_cons_self
      obtain ⟨obj, objHeld, hobj⟩ := exists_agrees free hs (f := rel.obj)
        (List.mem_cons_of_mem _ List.mem_cons_self)
      exact ⟨_, Schema.ofPayload_rel (normal _ hs) hsub hobj (hsub.id ▸ withId?_facts subHeld)
        (hobj.id ▸ withId?_facts objHeld), Schema.alike_rebase hsub hobj⟩
  have eq : r.reload s = t := by
    rw [reload, loaded]
    rfl
  exact eq ▸ ⟨loaded, alike⟩

/-! ### Loading -/

theorem loadFacts_eq_ok {loaded facts : List Schema} (kinds : ∀ s ∈ facts, s.kind = .fact)
    (normal : ∀ s ∈ facts, s.IsNormal) (distinct : ((loaded ++ facts).map Schema.id).Nodup) :
    loadFacts loaded (facts.map Schema.toPayload) = .ok (loaded ++ facts) := by
  induction facts generalizing loaded with
  | nil => simp [loadFacts]
  | cons s rest ih =>
    have first : Schema.ofPayload s.toPayload (fun _ => none) = .ok s := by
      cases s with
      | fact f => exact Schema.ofPayload_fact (normal _ List.mem_cons_self) _
      | rel r => exact absurd (kinds _ List.mem_cons_self) nofun
    have fresh : ¬ loaded.any (·.id == s.id) = true := by
      rw [List.any_eq_true]
      rintro ⟨t, ht, eq⟩
      have apart := (List.nodup_append.1 (List.map_append ▸ distinct)).2.2
      exact apart _ (List.mem_map_of_mem ht) _ List.mem_cons_self (beq_iff_eq.1 eq)
    have others : loadFacts (loaded ++ [s]) (rest.map Schema.toPayload) = .ok (loaded ++ [s] ++ rest) :=
      ih (fun t ht => kinds t (List.mem_cons_of_mem _ ht))
        (fun t ht => normal t (List.mem_cons_of_mem _ ht)) (by simpa using distinct)
    rw [List.map_cons, loadFacts, first, ok_bind, if_neg fresh]
    exact others.trans (by rw [List.append_assoc]; rfl)

theorem kind_toPayload (s : Schema) : s.toPayload.kind = s.kind := by cases s <;> rfl

theorem filter_toPayload (schemas : List Schema) (kind : Kind) :
    (schemas.map Schema.toPayload).filter (·.kind == kind) =
      (schemas.filter (·.kind == kind)).map Schema.toPayload := by
  simp only [List.filter_map, Function.comp_def, kind_toPayload]

theorem perm_facts_append (r : Registry) :
    (Schema.sortById r.facts ++ r.predicates.filter (·.kind == .rel)).Perm r.predicates := by
  have kinds : r.predicates.filter (·.kind == .rel) = r.predicates.filter (!·.kind == .fact) :=
    List.filter_congr fun s _ => by cases s <;> rfl
  rw [kinds]
  exact ((Schema.perm_sortById _).append_right _).trans (List.filter_append_perm ..)

/-- Entity schemas that are stored among others are loaded as they are. -/
theorem loadFacts_ofSchemas {schemas : List Schema} (normal : ∀ s ∈ schemas, s.IsNormal)
    (distinct : (schemas.map Schema.id).Nodup) :
    loadFacts [] ((RegistryPayload.ofSchemas schemas).predicates.filter (·.kind == .fact)) =
      .ok (schemas.filter (·.kind == .fact)) := by
  refine (congrArg _ (filter_toPayload schemas .fact)).trans (loadFacts_eq_ok ?_ ?_ ?_)
  · exact fun s hs => beq_iff_eq.1 (List.mem_filter.1 hs).2
  · exact fun s hs => normal s (List.mem_filter.1 hs).1
  · exact distinct.sublist (List.filter_sublist.map _)

section Reload

variable {r : Registry}

variable (free : r.CollisionFree) (normal : ∀ s ∈ r.predicates, s.IsNormal)

include free normal

theorem mapM_rels :
    (r.toPayload.predicates.filter (·.kind == .rel)).mapM
      (fun q => Schema.ofPayload q (Schema.withId? r.facts)) =
        .ok ((r.predicates.filter (·.kind == .rel)).map r.reload) := by
  refine (congrArg _ (filter_toPayload r.predicates .rel)).trans (mapM_map_eq_ok fun s hs => ?_)
  exact (reload_spec free normal (List.mem_filter.1 hs).1).1

/-- An entity schema is loaded as it is. -/
theorem map_reload_facts :
    (Schema.sortById r.facts).map r.reload = Schema.sortById r.facts := by
  refine (List.map_congr_left fun s hs => ?_).trans (List.map_id _)
  obtain ⟨held, isFact⟩ := List.mem_filter.1 ((Schema.perm_sortById _).mem_iff.1 hs)
  obtain ⟨loaded, -⟩ := reload_spec free normal held
  cases s with
  | fact f => exact Except.ok.inj (loaded.symm.trans (Schema.ofPayload_fact (normal _ held) _))
  | rel r => exact absurd isFact nofun

/-- What is loaded are the schemas of a registry, listed as those that were stored. -/
theorem exists_ofList_reload {all : List Schema} (perm : all.Perm r.predicates) :
    ∃ r', ofList (all.map r.reload) = .ok r' ∧ r'.predicates = r.predicates.map r.reload := by
  have spec {s : Schema} (hs : s ∈ all) := reload_spec free normal (perm.mem_iff.1 hs)
  have ids : (all.map r.reload).map Schema.id = all.map Schema.id := by
    rw [List.map_map]
    exact List.map_congr_left fun s hs => (spec hs).2.id
  obtain ⟨r', built⟩ : ∃ r', ofList (all.map r.reload) = .ok r' := by
    refine exists_ofList ?_ fun t ht => ?_
    · rw [ids]
      exact r.ids_nodup.perm (perm.map _).symm
    · obtain ⟨s, hs, rfl⟩ := List.mem_map.1 ht
      rw [ids, (spec hs).2.endpointIds]
      exact fun id hid => (perm.map _).mem_iff.2 (r.closed s (perm.mem_iff.1 hs) hid)
  -- reloading keeps what the listing sorts by
  have listed : Schema.listed (all.map r.reload) = (Schema.listed all).map r.reload :=
    (List.map_mergeSort fun a ha b hb => by
      rw [(spec ha).2.listingOrder (spec hb).2]).symm
  exact ⟨r', built, by rw [predicates_of_ofList built, listed, listed_eq_predicates r perm]⟩

/-- Loading the payload of a registry reloads each of its schemas. -/
theorem exists_ofPayload_toPayload :
    ∃ r', ofPayload r.toPayload = .ok r' ∧ r'.predicates = r.predicates.map r.reload := by
  obtain ⟨r', built, reloaded⟩ := exists_ofList_reload free normal (perm_facts_append r)
  refine ⟨r', ?_, reloaded⟩
  -- the loader puts the entity schemas first, which are not changed by reloading
  rw [List.map_append, map_reload_facts free normal] at built
  have facts : loadFacts [] (r.toPayload.predicates.filter (·.kind == .fact)) = .ok r.facts :=
    loadFacts_ofSchemas normal r.ids_nodup
  unfold ofPayload
  rw [facts, ok_bind, mapM_rels free normal, ok_bind, built]
  rfl

end Reload

theorem alike_of_reload {r r' : Registry} (free : r.CollisionFree)
    (normal : ∀ s ∈ r.predicates, s.IsNormal) (h : r'.predicates = r.predicates.map r.reload) :
    List.Forall₂ Schema.Alike r'.predicates r.predicates := by
  rw [h, List.forall₂_map_left_iff]
  exact List.forall₂_same.2 fun s hs => (reload_spec free normal hs).2

/-- Registries with the same content schema by schema are stored alike. -/
theorem ofSchemas_eq_of_alike {schemas schemas' : List Schema}
    (alike : List.Forall₂ Schema.Alike schemas schemas') :
    RegistryPayload.ofSchemas schemas = .ofSchemas schemas' := by
  have stored := Schema.map_eq_of_alike (fun h => h.stored) alike
  rw [RegistryPayload.ofSchemas, RegistryPayload.ofSchemas, stored]

theorem ids_eq_of_reload {r r' : Registry} (free : r.CollisionFree)
    (normal : ∀ s ∈ r.predicates, s.IsNormal) (h : r'.predicates = r.predicates.map r.reload) :
    r'.ids = r.ids := by
  have same {s : Schema} (hs : s ∈ r.predicates) : (r.reload s).id = s.id :=
    (reload_spec free normal hs).2.id
  have sorted : Schema.sortById (r.predicates.map r.reload) =
      (Schema.sortById r.predicates).map r.reload :=
    (List.map_mergeSort fun a ha b hb => by rw [same ha, same hb]).symm
  rw [ids, h, sorted, List.map_map, ids]
  exact List.map_congr_left fun s hs => same ((Schema.perm_sortById _).mem_iff.1 hs)

/-- The text of a registry is read as its payload. -/
theorem decode_toText (r : Registry) (arities : ∀ s ∈ r.predicates, s.arity < UInt64.size) :
    Decode.ofText RegistryPayload.decode r.toText = .ok r.toPayload := by
  have version : ∀ n ∈ r.toPayload.version, n < UInt32.size := fun n hn =>
    Option.mem_some_iff.1 hn ▸ by decide
  have below : ∀ q ∈ r.toPayload.predicates, ∀ n ∈ q.arity, n < UInt64.size := by
    intro q hq n hn
    obtain ⟨s, hs, rfl⟩ := List.mem_map.1 hq
    have declared : s.toPayload.arity = some s.arity := by cases s <;> rfl
    exact Option.mem_some_iff.1 (declared ▸ hn) ▸ arities s hs
  rw [Decode.ofText, toText, (r.toPayload.fits version below).read_indented]
  exact congrArg (Except.mapError _) (r.toPayload.decode_reads version below .direct)

/-- **A registry is loaded from its text.** However it came about, the registry of its text has the
same text, and schema by schema the same content in the same order. An arity counts arguments in
memory, so it is below the size of a machine word. -/
theorem ofText_toText {r : Registry} (built : r.Built) (free : r.CollisionFree)
    (arities : ∀ s ∈ r.predicates, s.arity < UInt64.size) :
    ∃ r', ofText r.toText = .ok r' ∧ r'.toText = r.toText ∧ r'.ids = r.ids ∧
      List.Forall₂ Schema.Alike r'.predicates r.predicates := by
  obtain ⟨r', loaded, reloaded⟩ := exists_ofPayload_toPayload free built.isNormal
  have alike := alike_of_reload free built.isNormal reloaded
  have stored : r'.toPayload = r.toPayload := ofSchemas_eq_of_alike alike
  refine ⟨r', ?_, ?_, ids_eq_of_reload free built.isNormal reloaded, alike⟩
  · rw [ofText, decode_toText r arities]
    exact loaded
  · rw [toText, stored, toText]

end Registry

/-! ### People who are described again -/

/-- People, with a description. -/
def FactSchema.described : FactSchema := { person with description := some "someone" }

theorem FactSchema.id_person_ne_id_knows : person.id ≠ RelSchema.knows.id := by
  rw [id_person, RelSchema.id_knows]
  decide +kernel

namespace Registry

/-- People with a description, and who of the people without one knows whom. -/
def redescribed : Registry where
  predicates := [.fact .described, .rel .knows]
  increasing := List.pairwise_pair.2 rfl
  ids_nodup := List.nodup_cons.2
    ⟨fun mem => FactSchema.id_person_ne_id_knows (List.mem_singleton.1 mem), List.nodup_singleton _⟩
  closed := by
    intro s hs
    rcases List.mem_pair.1 hs with rfl | rfl
    · exact List.nil_subset _
    · intro id hid
      rcases List.mem_pair.1 hid with rfl | rfl
      · exact .head _
      · exact .head _

theorem built_redescribed : redescribed.Built := by
  have person := FactSchema.isNormal_person
  refine .ofList (fun s hs => Schema.made_iff_isNormal.2 ?_) redescribed.ofList_predicates
  rcases List.mem_pair.1 hs with rfl | rfl
  · exact FactSchema.IsNormal.mk person.trimmed person.named person.signature person.keys
  · exact RelSchema.isNormal_knows

theorem collisionFree_redescribed : redescribed.CollisionFree := by
  -- both schemas of people have one text, and the relation has another digest
  have apart := FactSchema.id_person_ne_id_knows
  have texts : ∀ s ∈ redescribed.known,
      s.identityText = (Schema.fact .person).identityText ∨ s = .rel .knows := by
    intro s hs
    simp only [known, redescribed, List.flatMap_cons, List.flatMap_nil, Schema.endpoints,
      List.cons_append, List.nil_append, List.append_nil, List.mem_cons, List.not_mem_nil,
      or_false] at hs
    rcases hs with rfl | rfl | rfl | rfl
    · exact .inl rfl
    · exact .inr rfl
    · exact .inl rfl
    · exact .inl rfl
  intro s hs t ht digest
  rcases texts s hs with textS | rfl
  · rcases texts t ht with textT | rfl
    · exact textS.trans textT.symm
    · rw [textS, ← Schema.id_eq_ofText, ← Schema.id_eq_ofText] at digest
      exact absurd digest apart
  · rcases texts t ht with textT | rfl
    · rw [textT, ← Schema.id_eq_ofText, ← Schema.id_eq_ofText] at digest
      exact absurd digest.symm apart
    · rfl

theorem ofText_toText_redescribed :
    redescribed.Built ∧ redescribed.CollisionFree ∧
      (∀ s ∈ redescribed.predicates, s.arity < UInt64.size) ∧
      ∃ r', ofText redescribed.toText = .ok r' ∧ r'.toText = redescribed.toText ∧
        r'.ids = redescribed.ids ∧
        List.Forall₂ Schema.Alike r'.predicates redescribed.predicates := by
  have arities : ∀ s ∈ redescribed.predicates, s.arity < UInt64.size := by decide
  exact ⟨built_redescribed, collisionFree_redescribed, arities,
    ofText_toText built_redescribed collisionFree_redescribed arities⟩

end Registry

end Clausal
