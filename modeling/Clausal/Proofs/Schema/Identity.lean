import Clausal.Proofs.Json.Unambiguous
import Clausal.Proofs.Schema.Normal

/-!
# What identifiers of schemas tell apart

The text behind the identifier of an entity schema determines everything that it is written from
(`FactSchema.agrees_of_identityText`), and it is never the text behind that of a relation schema
(`Schema.identityText_ne`).
-/

namespace Clausal

open Json

/-! ### Arguments -/

theorem Role.text_injective {r s : Role} (h : r.text = s.text) : r = s := by
  cases r <;> cases s <;> first | rfl | exact absurd h (by decide)

theorem sorted_ofString?_injective {s t : Option String}
    (h : (ofString? s).sorted = (ofString? t).sorted) : s = t := by
  cases s <;> cases t <;> cases h <;> rfl

theorem Arg.sorted_canonical_injective {a b : Arg} (h : a.canonical.sorted = b.canonical.sorted) :
    a = b := by
  have distinct : (["arg_name", "datatype", "role", "namespace"] : List String).Nodup := by decide
  have name := sorted_value_eq_at h distinct 0 rfl rfl
  have datatype := sorted_value_eq_at h distinct 1 rfl rfl
  have role := sorted_value_eq_at h distinct 2 rfl rfl
  have space := sorted_value_eq_at h distinct 3 rfl rfl
  obtain ⟨_, _, _, _⟩ := a
  obtain ⟨_, _, _, _⟩ := b
  rw [Arg.mk.injEq]
  exact ⟨str.inj name, str.inj datatype,
    Option.map_injective (fun _ _ => Role.text_injective) (sorted_ofString?_injective role),
    sorted_ofString?_injective space⟩

theorem sorted_arr_map_injective {α : Type} {f : α → Json} {xs ys : List α}
    (inj : ∀ x y, (f x).sorted = (f y).sorted → x = y)
    (h : (arr (xs.map f)).sorted = (arr (ys.map f)).sorted) : xs = ys := by
  have items : (xs.map f).map sorted = (ys.map f).map sorted := by
    rw [← sortedItems_eq_map, ← sortedItems_eq_map]
    exact arr.inj h
  rw [List.map_map, List.map_map] at items
  exact List.map_injective_iff.2 (fun x y => inj x y) items

theorem sorted_ofStrings_injective {xs ys : List String}
    (h : (ofStrings xs).sorted = (ofStrings ys).sorted) : xs = ys :=
  sorted_arr_map_injective (f := .str) (fun _ _ eq => str.inj eq) h

/-! ### Texts behind identifiers -/

/-- The text that the identifier of a schema is the digest of. -/
def Schema.identityText : Schema → String
  | .fact f => (FactSchema.identity f.name f.signature f.keyFields).canonical
  | .rel r => (RelSchema.identity r.name r.sub.id r.obj.id r.subKeyFields r.objKeyFields
      r.props).canonical

theorem Schema.id_eq_ofText (s : Schema) : s.id = Identifier.ofText s.identityText := by
  cases s with
  | fact f => exact f.id_eq
  | rel r => exact r.id_eq

section Numbers

variable {P : Json.Number → Prop}

theorem hasNumbers_ofStrings (xs : List String) : (ofStrings xs).HasNumbers P :=
  haveNumbers_iff.2 fun _ h => by
    obtain ⟨s, -, rfl⟩ := List.mem_map.1 h
    trivial

theorem hasNumbers_ofString? (s : Option String) : (ofString? s).HasNumbers P := by
  cases s <;> trivial

theorem hasNumbers_canonical (args : List Arg) :
    (arr (args.map Arg.canonical)).HasNumbers P :=
  haveNumbers_iff.2 fun _ h => by
    obtain ⟨a, -, rfl⟩ := List.mem_map.1 h
    exact ⟨trivial, trivial, hasNumbers_ofString? _, hasNumbers_ofString? _, trivial⟩

theorem hasNumbers_factIdentity (name : String) (signature : Signature) (keyFields : List String) :
    (FactSchema.identity name signature keyFields).HasNumbers P :=
  ⟨trivial, trivial, hasNumbers_canonical _, hasNumbers_ofStrings _, trivial⟩

theorem hasNumbers_relIdentity (name subId objId : String) (subKeyFields objKeyFields : List String)
    (props : Signature) :
    (RelSchema.identity name subId objId subKeyFields objKeyFields props).HasNumbers P :=
  ⟨trivial, trivial, trivial, trivial,
    ⟨hasNumbers_ofStrings _, hasNumbers_ofStrings _, trivial⟩, hasNumbers_canonical _, trivial⟩

end Numbers

theorem Signature.eq_of_sorted_canonical {s t : Signature}
    (h : (arr (s.args.map Arg.canonical)).sorted = (arr (t.args.map Arg.canonical)).sorted) :
    s = t := by
  have args := sorted_arr_map_injective (fun _ _ => Arg.sorted_canonical_injective) h
  obtain ⟨_, _⟩ := s
  obtain ⟨_, _⟩ := t
  exact Signature.mk.injEq .. ▸ args

theorem FactSchema.eq_of_sorted_identity {name name' : String} {signature signature' : Signature}
    {keyFields keyFields' : List String} (h : (identity name signature keyFields).sorted =
      (identity name' signature' keyFields').sorted) :
    name = name' ∧ signature = signature' ∧ keyFields = keyFields' := by
  have distinct : (["kind", "name", "signature", "key_fields"] : List String).Nodup := by decide
  have name := sorted_value_eq_at h distinct 1 rfl rfl
  have signature := sorted_value_eq_at h distinct 2 rfl rfl
  have keyFields := sorted_value_eq_at h distinct 3 rfl rfl
  exact ⟨str.inj name, Signature.eq_of_sorted_canonical signature,
    sorted_ofStrings_injective keyFields⟩

/-- Entity schemas with one text differ in description and merge policy only. -/
theorem FactSchema.agrees_of_identityText {f g : FactSchema}
    (h : Schema.identityText (.fact f) = Schema.identityText (.fact g)) : f.Agrees g := by
  have h := sorted_eq_of_canonical_eq (hasNumbers_factIdentity ..) (hasNumbers_factIdentity ..) h
  obtain ⟨name, signature, keyFields⟩ := eq_of_sorted_identity h
  exact ⟨name, signature, keyFields⟩

/-- The text of an entity schema is not that of a relation schema. -/
theorem Schema.identityText_ne (f : FactSchema) (r : RelSchema) :
    identityText (.fact f) ≠ identityText (.rel r) := by
  intro h
  have h := sorted_eq_of_canonical_eq (hasNumbers_factIdentity ..) (hasNumbers_relIdentity ..) h
  have distinct : (["kind", "name", "sub_schema_id", "obj_schema_id", "endpoints", "props"] :
      List String).Nodup := by decide
  have kind := sorted_value_eq_at h distinct 0 rfl rfl
  exact absurd (str.inj kind) (by decide)

end Clausal
