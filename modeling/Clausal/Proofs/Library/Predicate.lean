import Clausal.Library.Basic
import Clausal.Proofs.Json.Canonical
import Clausal.Proofs.Schema.Identity
import Clausal.Proofs.Schema.Normal

/-!
# What identifiers of predicates name

A reference names a predicate by its identifier alone, be it one of a registry or one of a library.
Main statement: `Predicate.id_names_fields`. The texts behind two identifiers are equal exactly when
both predicates are of one kind and agree in their canonical fields, so that identifiers can be
equal for another reason only when the digests of two texts collide.
-/

namespace Clausal

open Json

/-! ### Canonical fields -/

/-- The fields of a predicate that its identifier depends on. -/
inductive CanonicalFields
  | fact (name : String) (signature : Signature) (keyFields : List String)
  | rel (name subId objId : String) (subKeyFields objKeyFields : List String) (props : Signature)
  | predicate (name : String) (arity : Nat) (signature : Option (List String))
deriving DecidableEq

namespace CanonicalFields

def kind : CanonicalFields → String
  | .fact .. => "fact"
  | .rel .. => "rel"
  | .predicate .. => "predicate"

/-- The fields but for the kind, as JSON. -/
def members : CanonicalFields → List (String × Json)
  | .fact name signature keyFields =>
    [("name", .str name), ("signature", .arr (signature.args.map Arg.canonical)),
      ("key_fields", .ofStrings keyFields)]
  | .rel name subId objId subKeyFields objKeyFields props =>
    [("name", .str name), ("sub_schema_id", .str subId), ("obj_schema_id", .str objId),
      ("endpoints", .obj [("sub_key_fields", .ofStrings subKeyFields),
        ("obj_key_fields", .ofStrings objKeyFields)]),
      ("props", .arr (props.args.map Arg.canonical))]
  | .predicate name arity signature =>
    [("name", .str name), ("arity", .ofNat arity), ("signature", signature.elim .null .ofStrings)]

/-- What the identifier of a predicate is the digest of. -/
def identity (c : CanonicalFields) : Json := .obj (("kind", .str c.kind) :: c.members)

/-- The arity, where it is a field, is a count. -/
def IsCounted : CanonicalFields → Prop
  | .predicate _ arity _ => arity < UInt64.size
  | _ => True

theorem hasNumbers_identity {c : CanonicalFields} (counted : c.IsCounted) :
    c.identity.HasNumbers Number.IsRepresentable := by
  match c with
  | .fact .. => exact hasNumbers_factIdentity ..
  | .rel .. => exact hasNumbers_relIdentity ..
  | .predicate name arity signature =>
    have arity : Number.IsRepresentable (.int arity) :=
      ⟨Int.le_trans (by decide) (Int.natCast_nonneg arity), Int.ofNat_lt.2 counted⟩
    have signature : (signature.elim null ofStrings).HasNumbers Number.IsRepresentable := by
      cases signature with
      | none => trivial
      | some datatypes => exact hasNumbers_ofStrings datatypes
    exact ⟨trivial, trivial, arity, signature, trivial⟩

theorem keys_nodup (c : CanonicalFields) :
    ((("kind", str c.kind) :: c.members).map (·.1)).Nodup := by
  cases c <;> simp [kind, members]

theorem kind_eq_of_sorted_identity {c d : CanonicalFields}
    (h : c.identity.sorted = d.identity.sorted) : c.kind = d.kind :=
  str.inj (sorted_value_eq_at h d.keys_nodup 0 rfl rfl)

/-- The signature of a library predicate can be missing, which differs from an empty one. -/
theorem sorted_signature_injective {s t : Option (List String)}
    (h : (s.elim null ofStrings).sorted = (t.elim null ofStrings).sorted) : s = t := by
  match s, t with
  | none, none => rfl
  | none, some _ | some _, none => cases h
  | some _, some _ => exact congrArg some (sorted_ofStrings_injective h)

theorem eq_of_sorted_identity {c d : CanonicalFields}
    (h : c.identity.sorted = d.identity.sorted) : c = d := by
  have kind := kind_eq_of_sorted_identity h
  have value := @sorted_value_eq_at _ _ h d.keys_nodup
  -- `value i` compares the members with the `i`-th key, which are the fields in their order
  match c, d with
  | .fact .., .fact .. =>
    obtain ⟨rfl, rfl, rfl⟩ := FactSchema.eq_of_sorted_identity h
    rfl
  | .rel .., .rel .. =>
    have endpoints := value 4 rfl rfl
    have distinct : (["sub_key_fields", "obj_key_fields"] : List String).Nodup := by decide
    have subKeyFields := sorted_value_eq_at endpoints distinct 0 rfl rfl
    have objKeyFields := sorted_value_eq_at endpoints distinct 1 rfl rfl
    obtain rfl := str.inj (value 1 rfl rfl)
    obtain rfl := str.inj (value 2 rfl rfl)
    obtain rfl := str.inj (value 3 rfl rfl)
    obtain rfl := sorted_ofStrings_injective subKeyFields
    obtain rfl := sorted_ofStrings_injective objKeyFields
    obtain rfl := Signature.eq_of_sorted_canonical (value 5 rfl rfl)
    rfl
  | .predicate .., .predicate .. =>
    have arity := value 2 rfl rfl
    have signature := value 3 rfl rfl
    obtain rfl := str.inj (value 1 rfl rfl)
    obtain rfl := Int.ofNat.inj (Number.int.inj (num.inj arity))
    rw [sorted_signature_injective signature]
  | .fact .., .rel .. | .fact .., .predicate .. | .rel .., .fact .. | .rel .., .predicate ..
  | .predicate .., .fact .. | .predicate .., .rel .. => simp [CanonicalFields.kind] at kind

theorem canonical_identity_eq_iff {c d : CanonicalFields} (hc : c.IsCounted) (hd : d.IsCounted) :
    c.identity.canonical = d.identity.canonical ↔ c = d := by
  rw [canonical_eq_iff_sorted_eq (hasNumbers_identity hc) (hasNumbers_identity hd)]
  exact ⟨eq_of_sorted_identity, fun h => h ▸ rfl⟩

end CanonicalFields

/-! ### Predicates of registries and libraries -/

/-- A spec that declares a predicate. -/
structure PredicateSpec where
  spec : LibrarySpec
  declares : spec.kind = .predicate
  /-- Arities of specs are counts. -/
  arity_lt : spec.arity < UInt64.size

/-- A predicate of a registry or of a library. -/
inductive Predicate
  | schema (s : Schema)
  | spec (p : PredicateSpec)

namespace Predicate

/-- The identifier by which references name a predicate. -/
def id? : Predicate → Option String
  | .schema s => some s.id
  | .spec p => p.spec.schemaId?

/-- The text that the identifier is the digest of. -/
def text : Predicate → String
  | .schema s => s.identityText
  | .spec p => p.spec.identity.canonical

def fields : Predicate → CanonicalFields
  | .schema (.fact f) => .fact f.name f.signature f.keyFields
  | .schema (.rel r) => .rel r.name r.sub.id r.obj.id r.subKeyFields r.objKeyFields r.props
  | .spec p => .predicate p.spec.name p.spec.arity p.spec.signature

theorem isCounted_fields (a : Predicate) : a.fields.IsCounted := by
  match a with
  | .schema (.fact _) | .schema (.rel _) => trivial
  | .spec p => exact p.arity_lt

theorem id?_eq_ofText (a : Predicate) : a.id? = some (Identifier.ofText a.text) := by
  match a with
  | .schema s => exact congrArg some s.id_eq_ofText
  | .spec p => simp only [id?, LibrarySpec.schemaId?, p.declares, text, Identifier.ofJson]

theorem text_eq_canonical (a : Predicate) : a.text = a.fields.identity.canonical := by
  match a with
  | .schema (.fact _) | .schema (.rel _) => rfl
  | .spec p =>
    rw [text, LibrarySpec.identity, p.declares]
    rfl

theorem text_eq_text_iff {a b : Predicate} : a.text = b.text ↔ a.fields = b.fields := by
  rw [a.text_eq_canonical, b.text_eq_canonical,
    CanonicalFields.canonical_identity_eq_iff a.isCounted_fields b.isCounted_fields]

end Predicate

/-- Different texts with one digest. -/
def Identifier.Collide (s t : String) : Prop := s ≠ t ∧ ofText s = ofText t

/-- **Identifiers name the canonical fields** of predicates, whatever else these consist of. -/
theorem Predicate.id_names_fields (a b : Predicate) :
    a.id? = some (Identifier.ofText a.text) ∧
      (a.text = b.text ↔ a.fields = b.fields) ∧
      (a.id? = b.id? ↔ a.fields = b.fields ∨ Identifier.Collide a.text b.text) := by
  refine ⟨a.id?_eq_ofText, text_eq_text_iff, ?_⟩
  rw [← text_eq_text_iff, a.id?_eq_ofText, b.id?_eq_ofText, Option.some.injEq]
  constructor
  · intro same
    by_cases texts : a.text = b.text
    · exact .inl texts
    · exact .inr ⟨texts, same⟩
  · rintro (texts | ⟨-, same⟩)
    · exact congrArg _ texts
    · exact same

/-! ### Who is older -/

/-- A predicate of two arguments that a library declares under a name. -/
def LibrarySpec.comparing (name : String) : LibrarySpec where
  name := name
  arity := 2
  kind := .predicate
  description := ""
  signature := none
  typing := none
  mapping := .empty

/-- Who is older than whom, with a description. -/
def PredicateSpec.older (description : String) : PredicateSpec where
  spec := { LibrarySpec.comparing "older" with description := description }
  declares := rfl
  arity_lt := (by decide : 2 < UInt64.size)

/-- A description does not change the identifier. That of a relation is another one, or the digests
of the two texts collide. -/
theorem Predicate.id_names_fields_older :
    (spec (.older "born before")).id? = (spec (.older "")).id? ∧
      (spec (.older "")).text ≠ (schema (.rel .knows)).text ∧
      ((spec (.older "")).id? = (schema (.rel .knows)).id? ↔
        Identifier.Collide (spec (.older "")).text (schema (.rel .knows)).text) := by
  obtain ⟨-, -, same⟩ := id_names_fields (spec (.older "born before")) (spec (.older ""))
  obtain ⟨-, texts, ids⟩ := id_names_fields (spec (.older "")) (schema (.rel .knows))
  have other : (spec (.older "")).fields ≠ (schema (.rel .knows)).fields := nofun
  exact ⟨same.2 (.inl rfl), fun eq => other (texts.1 eq), ids.trans (or_iff_right other)⟩

end Clausal
