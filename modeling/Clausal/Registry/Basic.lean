import Clausal.Registry.Index

/-!
# Registries

A registry is a set of schemas with different identifiers that holds the endpoints of each of its
relations. Its predicates are listed by kind, name and identifier, and lookups are answered from an
index of them. Different identifiers make the listing strictly increasing (`pairwise_listed`).
-/

namespace Clausal

/-- A source gives the schema that an identifier names, or says why there is none. -/
abbrev Source := String → Except SchemaError Schema

namespace Schema

/-- The order in which predicates are listed: by kind, then name, then identifier. -/
def listingOrder : Schema → Schema → Ordering :=
  compareLex (compareOn kind) (compareLex (compareOn name) (compareOn id))

instance : Std.TransCmp listingOrder :=
  inferInstanceAs
    (Std.TransCmp (compareLex (compareOn kind) (compareLex (compareOn name) (compareOn id))))

theorem id_eq_of_listingOrder {a b : Schema} (h : listingOrder a b = .eq) : a.id = b.id :=
  Std.LawfulEqCmp.eq_of_compare (compareLex_eq_eq.1 (compareLex_eq_eq.1 h).2).2

/-- Schemas in the order in which predicates are listed. -/
def listed (schemas : List Schema) : List Schema :=
  schemas.mergeSort fun a b => (listingOrder a b).isLE

theorem perm_listed (schemas : List Schema) : (listed schemas).Perm schemas :=
  List.mergeSort_perm ..

/-- Schemas with different identifiers are listed in strictly increasing order. -/
theorem pairwise_listed {schemas : List Schema} (distinct : (schemas.map id).Nodup) :
    (listed schemas).Pairwise fun a b => listingOrder a b = .lt := by
  have sorted : (listed schemas).Pairwise fun a b => (listingOrder a b).isLE = true :=
    List.pairwise_mergeSort (fun _ _ _ => Std.TransCmp.isLE_trans)
      (fun a b => by
        rw [@Std.OrientedCmp.eq_swap _ listingOrder _ b a]
        cases listingOrder a b <;> rfl) schemas
  have different := List.pairwise_map.1 (distinct.perm ((perm_listed schemas).symm.map id))
  refine sorted.imp₂ (fun a b le ne => ?_) different
  cases h : listingOrder a b with
  | lt => rfl
  | eq => exact absurd (id_eq_of_listingOrder h) ne
  | gt => simp [h] at le

/-- Schemas in the order of their identifiers. -/
def sortById (schemas : List Schema) : List Schema :=
  schemas.mergeSort fun a b => (compare a.id b.id).isLE

theorem perm_sortById (schemas : List Schema) : (sortById schemas).Perm schemas :=
  List.mergeSort_perm ..

def withId? (schemas : List Schema) (id : String) : Option Schema := schemas.find? (·.id == id)

/-- The only one of the schemas that were found for a kind and name. -/
def theOne (kind : Kind) (name : String) : List Schema → Except SchemaError Schema
  | [] => .error (.unknownPredicate kind name)
  | [s] => .ok s
  | found => .error (.ambiguousPredicate kind name found.length)

/-- The names of schemas, in order and without repetition. -/
def namesOf (schemas : List Schema) : List String :=
  (SortedMap.ofList (schemas.map fun s => (s.name, ()))).keys

/-- The identifiers of the endpoints of a relation. -/
def endpointIds : Schema → List String
  | .fact _ => []
  | .rel r => [r.sub.id, r.obj.id]

end Schema

/-- A set of schemas, in the order in which predicates are listed, with its index. -/
structure Registry where
  predicates : List Schema
  increasing : predicates.Pairwise fun a b => Schema.listingOrder a b = .lt
  ids_nodup : (predicates.map Schema.id).Nodup
  closed : ∀ s ∈ predicates, s.endpointIds ⊆ predicates.map Schema.id
  index : SchemaIndex := .ofSchemas predicates
  index_eq : index = .ofSchemas predicates := by rfl

namespace Registry

def empty : Registry where
  predicates := []
  increasing := .nil
  ids_nodup := .nil
  closed := by simp

/-- The name of each relation with each of its endpoints, in the order of the identifiers. -/
def neededEndpoints (schemas : List Schema) : List (String × String) :=
  (Schema.sortById schemas).flatMap fun s => s.endpointIds.map (s.name, ·)

theorem mem_neededEndpoints {schemas : List Schema} {s : Schema} {endpoint : String}
    (hs : s ∈ schemas) (he : endpoint ∈ s.endpointIds) :
    (s.name, endpoint) ∈ neededEndpoints schemas :=
  List.mem_flatMap.2 ⟨s, (Schema.perm_sortById schemas).mem_iff.2 hs, List.mem_map_of_mem he⟩

/-- The registry of some schemas. -/
def ofList (schemas : List Schema) : Except SchemaError Registry :=
  match distinct : firstRepeat? Schema.id [] schemas with
  | some s => .error (.duplicateIdentifier s.id s.name)
  | none =>
    match known : (neededEndpoints schemas).find? fun e => !schemas.any (·.id == e.2) with
    | some (relation, endpoint) => .error (.unresolvedEndpoint relation endpoint)
    | none =>
      have perm := (Schema.perm_listed schemas).map Schema.id
      .ok {
        predicates := Schema.listed schemas
        increasing := Schema.pairwise_listed (nodup_of_firstRepeat? distinct)
        ids_nodup := (nodup_of_firstRepeat? distinct).perm perm.symm
        closed := fun s hs endpoint he => by
          have hs := (Schema.perm_listed schemas).mem_iff.1 hs
          have held := List.find?_eq_none.1 known _ (mem_neededEndpoints hs he)
          exact perm.mem_iff.2 (List.mem_map.2 (by simpa using held)) }

/-- The registry with one more schema. -/
def insert (r : Registry) (s : Schema) : Except SchemaError Registry :=
  ofList (Schema.sortById r.predicates ++ [s])

def size (r : Registry) : Nat := r.predicates.length

/-- The identifiers in order. -/
def ids (r : Registry) : List String := (Schema.sortById r.predicates).map Schema.id

def get (r : Registry) : Source := fun id =>
  match r.index.byId.get? id with
  | some s => .ok s
  | none => .error (.unknownSchemaId id)

/-- The only predicate of a kind and name. -/
def find (r : Registry) (kind : Kind) (name : String) : Except SchemaError Schema :=
  Schema.theOne kind name (r.index.named ⟨kind, name⟩)

def relation (r : Registry) (name sub obj : String) : Except SchemaError Schema :=
  match r.index.relation? ⟨name, sub, obj⟩ with
  | some s => .ok s
  | none => .error (.unknownRelationTriple name sub obj)

def names (r : Registry) : List String := Schema.namesOf r.predicates

end Registry

end Clausal
