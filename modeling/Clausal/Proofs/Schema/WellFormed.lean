import Clausal.Proofs.Schema.Normal
import Clausal.Proofs.Schema.Sides
import Mathlib.Data.List.Forall2

/-!
# Well-formed schemas

Every schema that can be obtained is well-formed (`Obtained.wellFormed`). A schema is obtained from a
declaration or from a payload, and so are the schemas that a relation declares or finds for its
endpoints (`Obtained.endpoints`). The arguments of a relation are named after fields of its
endpoints, so that they are in order when those are.
-/

namespace Clausal

open Text

/-! ### Arguments in order -/

/-- An argument as a schema has it. -/
structure Arg.WellFormed (a : Arg) : Prop where
  named : a.name ≠ ""
  trimmed : trim a.name = a.name
  typed : a.datatype ≠ ""
  normalized : Datatype.normalize a.datatype = a.datatype

theorem Arg.IsNormal.wellFormed {a : Arg} (normal : a.IsNormal) : a.WellFormed := by
  obtain ⟨trimmed, named, datatype, -⟩ := normal
  simp only [Signature.resolvedDatatype, Option.getD_some] at datatype
  split at datatype
  case isTrue none =>
    rw [← datatype] at none
    exact absurd none (by decide)
  case isFalse some => exact ⟨named, trimmed, datatype ▸ some, datatype⟩

/-- `a` is the argument for the key field `key` of an entity schema at a side. -/
def Arg.IsKeyOf (endpoint : FactSchema) (side : Side) (key : String) (a : Arg) : Prop :=
  ∃ field ∈ endpoint.signature.args, field.name = key ∧
    a = ⟨side.start ++ key, field.datatype, some side.role, field.space⟩

theorem Arg.isKeyOf_of_find? {endpoint : FactSchema} {side : Side} {key : String} {field : Arg}
    (found : endpoint.signature.find? key = some field) :
    IsKeyOf endpoint side key ⟨side.start ++ key, field.datatype, some side.role, field.space⟩ := by
  obtain ⟨mem, name⟩ := Signature.find?_eq_some_iff.1 found
  exact ⟨field, mem, name, rfl⟩

theorem Arg.IsKeyOf.wellFormed {endpoint : FactSchema} {side : Side} {key : String} {a : Arg}
    (h : a.IsKeyOf endpoint side key) (sound : ∀ field ∈ endpoint.signature.args, field.WellFormed) :
    a.WellFormed := by
  obtain ⟨field, mem, rfl, rfl⟩ := h
  obtain ⟨named, trimmed, typed, normalized⟩ := sound field mem
  have mark : trim side.start = side.start ∧ side.start ≠ "" := by cases side <;> decide
  refine ⟨fun none => ?_, trim_append mark.1 trimmed mark.2 named, typed, normalized⟩
  exact mark.2 (String.append_eq_empty_iff.1 none).1

/-! ### Signatures of relations -/

namespace RelSchema

/-- There is one argument for each key field, in their order. -/
theorem forall₂_endpointArgs {endpoint : FactSchema} {keyFields : List String} (side : Side)
    (h : keyFields ⊆ endpoint.signature.names) :
    List.Forall₂ (Arg.IsKeyOf endpoint side) keyFields (endpointArgs endpoint keyFields side) := by
  induction keyFields with
  | nil => exact .nil
  | cons key rest ih =>
    obtain ⟨declared, others⟩ := List.cons_subset.1 h
    obtain ⟨field, found⟩ := Option.isSome_iff_exists.1 (Signature.isSome_find?_iff.2 declared)
    rw [endpointArgs, List.filterMap_cons, found]
    exact .cons (Arg.isKeyOf_of_find? found) (ih others)

/-- The arguments of a relation are those for the key fields of both sides and the props. -/
structure LaidOut (r : RelSchema) : Prop where
  keys : ∀ side, r.keyFieldsOf side ⊆ (r.endpoint side).signature.names
  args : ∃ sub obj, r.signature.args = sub ++ obj ++ r.props.args ∧
    List.Forall₂ (Arg.IsKeyOf r.sub .sub) r.subKeyFields sub ∧
    List.Forall₂ (Arg.IsKeyOf r.obj .obj) r.objKeyFields obj
  arity : (Schema.rel r).arity = r.subKeyFields.length + r.objKeyFields.length + r.props.length

theorem laidOut (r : RelSchema) : r.LaidOut where
  keys := r.keyFieldsOf_subset
  args := ⟨_, _, rfl, forall₂_endpointArgs .sub r.subKeyFields_subset,
    forall₂_endpointArgs .obj r.objKeyFields_subset⟩
  arity := r.arity_eq

theorem wellFormed_of_mem_argsAt {r : RelSchema} {side : Side} {a : Arg} (h : a ∈ r.argsAt side)
    (sound : ∀ field ∈ (r.endpoint side).signature.args, field.WellFormed) : a.WellFormed := by
  obtain ⟨key, -, given⟩ := List.mem_filterMap.1 h
  obtain ⟨field, found, rfl⟩ := Option.map_eq_some_iff.1 given
  exact (Arg.isKeyOf_of_find? found).wellFormed sound

end RelSchema

namespace Schema

/-! ### Schemas that can be obtained -/

/-- The schemas that can be had: those of declarations and those of payloads, where what is declared or
found for the endpoints of a relation has been obtained before. -/
inductive Obtained : Schema → Prop
  | fact {d s} (h : FactDeclaration.build d = .ok s) : Obtained s
  | rel {d s} (sub : Obtained d.sub) (obj : Obtained d.obj) (h : RelDeclaration.build d = .ok s) :
    Obtained s
  | stored {p find? s} (known : ∀ id e, find? id = some e → Obtained e)
    (h : ofPayload p find? = .ok s) : Obtained s

/-- A schema as building makes it. -/
structure WellFormed (s : Schema) : Prop where
  args : ∀ a ∈ s.signature.args, a.WellFormed
  distinct : s.signature.names.Nodup
  keys : s.keyFields ⊆ s.signature.names
  laidOut : ∀ r, s = .rel r → r.LaidOut

theorem Obtained.isNormal {s : Schema} (h : s.Obtained) : s.IsNormal := by
  cases h with
  | fact h => exact (Made.fact h).isNormal
  | rel _ _ h => exact (Made.rel h).isNormal
  | stored _ h => exact isNormal_of_ofPayload h

/-- The endpoints of a schema that has been obtained have been obtained before. -/
theorem Obtained.endpoints {s : Schema} (h : s.Obtained) : ∀ e ∈ s.endpoints, e.Obtained := by
  intro e he
  cases h with
  | fact h =>
    obtain ⟨specs, -, h⟩ := bind_eq_ok.1 h
    obtain ⟨f, -, h⟩ := bind_eq_ok.1 h
    cases h
    exact absurd he List.not_mem_nil
  | rel sub obj h =>
    obtain ⟨specs, -, h⟩ := bind_eq_ok.1 h
    obtain ⟨r, built, h⟩ := bind_eq_ok.1 h
    cases h
    obtain ⟨isSub, isObj⟩ := RelSchema.endpoints_of_build built
    rcases List.mem_pair.1 he with rfl | rfl
    exacts [isSub ▸ sub, isObj ▸ obj]
  | stored known h =>
    obtain ⟨id, found⟩ := exists_find?_of_ofPayload h e he
    exact known id e found

theorem mem_endpoints (r : RelSchema) (side : Side) :
    Schema.fact (r.endpoint side) ∈ (Schema.rel r).endpoints := by
  cases side with
  | sub => exact List.mem_cons_self
  | obj => exact List.mem_cons_of_mem _ List.mem_cons_self

/-- The schemas that can be had are those in normal form between entity schemas in normal form. -/
theorem obtained_iff_isNormal {s : Schema} :
    s.Obtained ↔ s.IsNormal ∧ ∀ e ∈ s.endpoints, e.IsNormal := by
  refine ⟨fun h => ⟨h.isNormal, fun e he => (h.endpoints e he).isNormal⟩, ?_⟩
  rintro ⟨normal, inside⟩
  cases s with
  | fact f => exact .fact (build_declarationOfFact normal)
  | rel r =>
    have endpoint (side : Side) : (Schema.fact (r.endpoint side)).Obtained :=
      .fact (build_declarationOfFact (inside _ (mem_endpoints r side)))
    exact .rel (endpoint .sub) (endpoint .obj) (build_declarationOfRel normal)

theorem Obtained.wellFormed {s : Schema} (h : s.Obtained) : s.WellFormed := by
  have own {l : List Arg} (normal : ∀ a ∈ l, a.IsNormal) : ∀ a ∈ l, a.WellFormed :=
    fun a ha => (normal a ha).wellFormed
  cases s with
  | fact f =>
    refine ⟨own h.isNormal.signature, f.signature.names_nodup, f.keyFields_subset, ?_⟩
    rintro _ ⟨⟩
  | rel r =>
    have sides (side : Side) : ∀ a ∈ r.argsAt side, a.WellFormed := fun a ha =>
      RelSchema.wellFormed_of_mem_argsAt ha
        (own (h.endpoints _ (mem_endpoints r side)).isNormal.signature)
    have args : ∀ a ∈ r.signature.args, a.WellFormed := by
      intro a ha
      rw [r.args_signature, List.mem_append, List.mem_append] at ha
      rcases ha with ha | ha | ha
      exacts [sides .sub a ha, sides .obj a ha, own h.isNormal.props a ha]
    have keys : r.keyFields ⊆ r.signature.names :=
      List.map_subset _ (List.subset_append_left _ _)
    refine ⟨args, r.signature.names_nodup, keys, ?_⟩
    rintro _ ⟨⟩
    exact r.laidOut

end Schema

end Clausal
