import Clausal.Proofs.Maps
import Clausal.Proofs.Outcomes
import Clausal.Proofs.Schema.Normal
import Clausal.Registry.Payload

/-!
# How registries come about

A registry is made from nothing, from a list of schemas, by one more schema or from a payload
(`Registry.Built`). The schemas in it come from declarations and payloads, so they are normal
(`Registry.Built.isNormal`).
-/

namespace Clausal

namespace Registry

/-! ### Registries of lists -/

theorem predicates_of_ofList {schemas : List Schema} {r : Registry} (h : ofList schemas = .ok r) :
    r.predicates = Schema.listed schemas := by
  unfold ofList at h
  split at h
  · cases h
  · split at h
    · cases h
    · cases h
      rfl

theorem mem_of_ofList {schemas : List Schema} {r : Registry} (h : ofList schemas = .ok r) {s : Schema} :
    s ∈ r.predicates ↔ s ∈ schemas := by
  rw [predicates_of_ofList h]
  exact (Schema.perm_listed schemas).mem_iff

/-- Schemas with different identifiers that hold their endpoints are those of a registry. -/
theorem exists_ofList {schemas : List Schema} (distinct : (schemas.map Schema.id).Nodup)
    (closed : ∀ s ∈ schemas, s.endpointIds ⊆ schemas.map Schema.id) :
    ∃ r, ofList schemas = .ok r := by
  have noRepeat : firstRepeat? Schema.id [] schemas = none :=
    firstRepeat?_eq_none_iff.2 ⟨distinct, fun _ _ => List.not_mem_nil⟩
  have known : (neededEndpoints schemas).find? (fun e => !schemas.any (·.id == e.2)) = none := by
    refine List.find?_eq_none.2 fun e he => ?_
    obtain ⟨s, hs, mem⟩ := List.mem_flatMap.1 he
    obtain ⟨endpoint, needed, rfl⟩ := List.mem_map.1 mem
    obtain ⟨t, ht, eq⟩ := List.mem_map.1 (closed s ((Schema.perm_sortById _).mem_iff.1 hs) needed)
    simpa using ⟨t, ht, eq⟩
  unfold ofList
  split
  case h_1 repeated => exact absurd (repeated.symm.trans noRepeat) nofun
  case h_2 =>
    split
    case h_1 missing => exact absurd (missing.symm.trans known) nofun
    case h_2 => exact ⟨_, rfl⟩

/-- The listing is unique. -/
theorem listed_eq_predicates (r : Registry) {schemas : List Schema}
    (perm : schemas.Perm r.predicates) : Schema.listed schemas = r.predicates := by
  have distinct : (schemas.map Schema.id).Nodup := r.ids_nodup.perm (perm.map _).symm
  exact SortedMap.eq_of_perm_of_increasing (Schema.pairwise_listed distinct) r.increasing
    ((Schema.perm_listed schemas).trans perm)

/-- Registries with the same predicates are the same. -/
theorem eq_of_predicates {r r' : Registry} (h : r.predicates = r'.predicates) : r = r' := by
  obtain ⟨_, _, _, _, _, rfl⟩ := r
  obtain ⟨_, _, _, _, _, rfl⟩ := r'
  cases h
  rfl

/-- A registry is that of its schemas. -/
theorem ofList_predicates (r : Registry) : ofList r.predicates = .ok r := by
  obtain ⟨r', h⟩ := exists_ofList r.ids_nodup r.closed
  have same : r' = r :=
    eq_of_predicates ((predicates_of_ofList h).trans (listed_eq_predicates r (.refl _)))
  exact same ▸ h

/-! ### Registries of payloads -/

/-- The schemas that a payload stores. -/
def loadAll (p : RegistryPayload) : Except SchemaError (List Schema) := do
  let facts ← loadFacts [] (p.predicates.filter (·.kind == .fact))
  let rels ← (p.predicates.filter (·.kind == .rel)).mapM fun q =>
    Schema.ofPayload q (Schema.withId? facts)
  return Schema.sortById facts ++ rels

/-- The registry of a payload is that of the schemas that it stores. -/
theorem ofPayload_eq_ok {p : RegistryPayload} {r : Registry} (h : ofPayload p = .ok r) :
    ∃ schemas, loadAll p = .ok schemas ∧ ofList schemas = .ok r := by
  unfold ofPayload at h
  dsimp only at h
  split at h
  case isTrue => cases h
  case isFalse =>
    obtain ⟨facts, loaded, h⟩ := bind_eq_ok.1 h
    obtain ⟨rels, built, h⟩ := bind_eq_ok.1 h
    refine ⟨_, ?_, h⟩
    rw [loadAll, loaded, ok_bind, built]
    rfl

theorem exists_of_loadFacts {loaded facts : List Schema} {payloads : List SchemaPayload}
    (h : loadFacts loaded payloads = .ok facts) :
    ∀ s ∈ facts, s ∈ loaded ∨ ∃ q, Schema.ofPayload q (fun _ => none) = .ok s := by
  induction payloads generalizing loaded with
  | nil =>
    cases h
    exact fun s hs => .inl hs
  | cons p rest ih =>
    obtain ⟨s, built, h⟩ := bind_eq_ok.1 h
    split at h
    case isTrue => cases h
    case isFalse =>
      intro t ht
      rcases ih h t ht with ht | made
      · rcases List.mem_append.1 ht with ht | ht
        · exact .inl ht
        · exact .inr ⟨p, List.mem_singleton.1 ht ▸ built⟩
      · exact .inr made

theorem mem_of_withId? {schemas : List Schema} {id : String} {s : Schema}
    (h : Schema.withId? schemas id = some s) : s ∈ schemas ∧ s.id = id :=
  ⟨List.mem_of_find?_eq_some h, by simpa using List.find?_some h⟩

/-- A schema that a payload stores is made of a payload of its own, and what is found for its
endpoints is stored along with it. -/
theorem exists_of_loadAll {p : RegistryPayload} {schemas : List Schema}
    (h : loadAll p = .ok schemas) {s : Schema} (hs : s ∈ schemas) :
    ∃ q find?, Schema.ofPayload q find? = .ok s ∧
      ∀ id t, find? id = some t → t ∈ schemas ∧ t.id = id := by
  obtain ⟨facts, loaded, h⟩ := bind_eq_ok.1 h
  obtain ⟨rels, built, h⟩ := bind_eq_ok.1 h
  cases h
  rcases List.mem_append.1 hs with hs | hs
  · rcases exists_of_loadFacts loaded s ((Schema.perm_sortById _).mem_iff.1 hs) with none | ⟨q, made⟩
    · exact absurd none List.not_mem_nil
    · exact ⟨q, _, made, fun _ t found => absurd found.symm (Option.some_ne_none t)⟩
  · obtain ⟨q, made⟩ := forall_of_mapM built (P := fun s => ∃ q,
      Schema.ofPayload q (Schema.withId? facts) = .ok s) (fun q s made => ⟨q, made⟩) s hs
    refine ⟨q, _, made, fun id t found => ?_⟩
    obtain ⟨ht, same⟩ := mem_of_withId? found
    exact ⟨List.mem_append_left _ ((Schema.perm_sortById _).mem_iff.2 ht), same⟩

theorem isNormal_of_ofPayload {p : RegistryPayload} {r : Registry} (h : ofPayload p = .ok r) :
    ∀ s ∈ r.predicates, s.IsNormal := by
  obtain ⟨schemas, loaded, h⟩ := ofPayload_eq_ok h
  intro s hs
  obtain ⟨q, find?, made, -⟩ := exists_of_loadAll loaded ((mem_of_ofList h).1 hs)
  exact Schema.isNormal_of_ofPayload made

/-! ### All registries -/

/-- The registries that there are. -/
inductive Built : Registry → Prop
  | empty : Built .empty
  | ofList {schemas r} (made : ∀ s ∈ schemas, s.Made) (h : ofList schemas = .ok r) : Built r
  | insert {r s r'} (built : Built r) (made : s.Made) (h : r.insert s = .ok r') : Built r'
  | ofPayload {p r} (h : ofPayload p = .ok r) : Built r

/-- All schemas of a registry are normal, by induction on how it came about. -/
theorem Built.isNormal {r : Registry} (built : r.Built) : ∀ s ∈ r.predicates, s.IsNormal := by
  induction built with
  | empty => exact fun _ h => absurd h List.not_mem_nil
  | ofList made h => exact fun s hs => (made s ((mem_of_ofList h).1 hs)).isNormal
  | insert built made h ih =>
    intro s hs
    rcases List.mem_append.1 ((mem_of_ofList h).1 hs) with hs | hs
    · exact ih s ((Schema.perm_sortById _).mem_iff.1 hs)
    · exact List.mem_singleton.1 hs ▸ made.isNormal
  | ofPayload h => exact isNormal_of_ofPayload h

end Registry

end Clausal
