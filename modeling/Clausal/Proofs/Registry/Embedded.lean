import Clausal.Proofs.Registry.Index
import Clausal.Proofs.Registry.Stored

/-!
# Entity schemas inside relations

Main statement: `Registry.endpoints_agree`. A relation carries the entity schemas that it was built
over. Registering checks their identifiers only, and an identifier leaves out description and merge
policy, so the registry may hold an entity schema that differs from the one inside in these two
(`Registry.ofList_redescribed`), but in nothing else. Loading a stored registry puts the one that it
holds into its relations.
-/

namespace Clausal

namespace Registry

/-! ### Registries that hold what their relations carry -/

/-- The registry holds the very entity schemas that are inside its relations. -/
def EmbedsEndpoints (r : Registry) : Prop :=
  ∀ s ∈ r.predicates, ∀ e ∈ s.endpoints, r.get e.id = .ok e

variable {r : Registry}

theorem embedsEndpoints_iff :
    r.EmbedsEndpoints ↔ ∀ s ∈ r.predicates, s.endpoints ⊆ r.predicates := by
  refine forall₂_congr fun s hs => forall₂_congr fun e he => ?_
  exact get_eq_ok_iff.trans (and_iff_left rfl)

/-- A registry of a payload holds what its relations carry. -/
theorem embedsEndpoints_of_ofPayload {p : RegistryPayload} (h : ofPayload p = .ok r) :
    r.EmbedsEndpoints := by
  obtain ⟨schemas, loaded, h⟩ := ofPayload_eq_ok h
  intro s hs e he
  obtain ⟨q, find?, made, stored⟩ := exists_of_loadAll loaded ((mem_of_ofList h).1 hs)
  obtain ⟨id, found⟩ := Schema.exists_find?_of_ofPayload made e he
  exact get_eq_ok_iff.2 ⟨(mem_of_ofList h).2 (stored id e found).1, rfl⟩

/-- A schema that carries what the registry holds is reloaded as it is. -/
theorem reload_eq_self {s : Schema} (normal : s.IsNormal) (embeds : s.endpoints ⊆ r.predicates) :
    r.reload s = s := by
  have found : ∀ e ∈ s.endpoints, Schema.withId? r.facts e.id = some e := by
    intro e he
    cases s with
    | fact f => exact absurd he List.not_mem_nil
    | rel rel =>
      have held := embeds he
      rcases List.mem_pair.1 he with rfl | rfl
      · exact withId?_facts held
      · exact withId?_facts held
  rw [reload, Schema.ofPayload_eq_self normal found]
  rfl

section Reload

variable (free : r.CollisionFree) (normal : ∀ s ∈ r.predicates, s.IsNormal)

include free normal

/-- A reloaded schema carries what the registry holds. -/
theorem get_of_mem_endpoints_reload {s e : Schema} (hs : s ∈ r.predicates)
    (he : e ∈ (r.reload s).endpoints) : r.get e.id = .ok e := by
  obtain ⟨loaded, -⟩ := reload_spec free normal hs
  obtain ⟨id, found⟩ := Schema.exists_find?_of_ofPayload loaded e he
  obtain ⟨held, -⟩ := mem_of_withId? found
  exact get_eq_ok_iff.2 ⟨(List.mem_filter.1 held).1, rfl⟩

/-- Reloading changes nothing exactly when the registry holds what its relations carry. -/
theorem map_reload_eq_iff : r.predicates.map r.reload = r.predicates ↔ r.EmbedsEndpoints := by
  constructor
  · intro same s hs e he
    obtain ⟨t, ht, rfl⟩ := List.mem_map.1 (same ▸ hs)
    exact get_of_mem_endpoints_reload free normal ht he
  · intro embeds
    have endpoints := embedsEndpoints_iff.1 embeds
    refine (List.map_congr_left fun s hs => ?_).trans (List.map_id _)
    exact reload_eq_self (normal s hs) (endpoints s hs)

end Reload

/-- **Relations carry what the registry holds, but for description and merge policy.** In a
registry of a payload they carry just that. In any registry without collisions the entity schema
that is held under the identifier of one inside a relation agrees with it in name, arguments and key
fields. Loading the stored registry puts the schemas that are held into its relations and changes
nothing else, so that it changes nothing exactly when they are there already. -/
theorem endpoints_agree :
    (∀ p r, ofPayload p = .ok r → r.EmbedsEndpoints) ∧
    ∀ r : Registry, r.Built → r.CollisionFree →
      (∀ s ∈ r.predicates, ∀ f, .fact f ∈ s.endpoints →
        ∃ g, r.get f.id = .ok (.fact g) ∧ g.Agrees f) ∧
      ∃ r', ofPayload r.toPayload = .ok r' ∧
        List.Forall₂ (fun s' s => s'.Alike s ∧ ∀ e ∈ s'.endpoints, r.get e.id = .ok e)
          r'.predicates r.predicates ∧
        (r'.predicates = r.predicates ↔ r.EmbedsEndpoints) := by
  refine ⟨fun p r h => embedsEndpoints_of_ofPayload h, fun r built free => ⟨?_, ?_⟩⟩
  · intro s hs f inside
    obtain ⟨g, held, agrees⟩ := exists_agrees free hs inside
    exact ⟨g, get_eq_ok_iff.2 ⟨held, agrees.id⟩, agrees⟩
  · have normal := built.isNormal
    obtain ⟨r', loaded, reloaded⟩ := exists_ofPayload_toPayload free normal
    refine ⟨r', loaded, ?_, by rw [reloaded, map_reload_eq_iff free normal]⟩
    rw [reloaded, List.forall₂_map_left_iff]
    refine List.forall₂_same.2 fun s hs => ⟨(reload_spec free normal hs).2, fun e he => ?_⟩
    exact get_of_mem_endpoints_reload free normal hs he

end Registry

/-! ### People who are described again -/

namespace Registry

theorem not_embedsEndpoints_redescribed : ¬ redescribed.EmbedsEndpoints := by
  intro embeds
  have endpoints := embedsEndpoints_iff.1 embeds (.rel .knows) (.tail _ (.head _))
  rcases List.mem_pair.1 (endpoints (.head _)) with same | same
  · have descriptions := congrArg Schema.description same
    exact absurd descriptions (by decide)
  · cases same

/-- A registry is accepted whose relation carries another schema than the registry holds, and which
is not the same after it is stored and loaded. -/
theorem ofList_redescribed :
    ofList [.fact .described, .rel .knows] = .ok redescribed ∧ ¬ redescribed.EmbedsEndpoints ∧
      ∃ r', ofPayload redescribed.toPayload = .ok r' ∧ r'.predicates ≠ redescribed.predicates := by
  have free := collisionFree_redescribed
  have normal := built_redescribed.isNormal
  obtain ⟨r', loaded, reloaded⟩ := exists_ofPayload_toPayload free normal
  refine ⟨redescribed.ofList_predicates, not_embedsEndpoints_redescribed, r', loaded, ?_⟩
  rw [reloaded, ne_eq, map_reload_eq_iff free normal]
  exact not_embedsEndpoints_redescribed

theorem endpoints_agree_redescribed :
    redescribed.Built ∧ redescribed.CollisionFree ∧
    (∀ s ∈ redescribed.predicates, ∀ f, .fact f ∈ s.endpoints →
      ∃ g, redescribed.get f.id = .ok (.fact g) ∧ g.Agrees f) ∧
    ∃ r', ofPayload redescribed.toPayload = .ok r' ∧ r'.EmbedsEndpoints ∧
      List.Forall₂ (fun s' s => s'.Alike s ∧ ∀ e ∈ s'.endpoints, redescribed.get e.id = .ok e)
        r'.predicates redescribed.predicates ∧
      (r'.predicates = redescribed.predicates ↔ redescribed.EmbedsEndpoints) := by
  obtain ⟨loadedEmbeds, agree⟩ := endpoints_agree
  obtain ⟨held, r', loaded, alike⟩ := agree _ built_redescribed collisionFree_redescribed
  exact ⟨built_redescribed, collisionFree_redescribed, held, r', loaded, loadedEmbeds _ _ loaded, alike⟩

end Registry

end Clausal
