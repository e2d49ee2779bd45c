import Clausal.Proofs.Json.Decoding
import Clausal.Proofs.Json.Reading
import Clausal.Schema.Payload

/-!
# Payloads of schemas are read as they were written

Main statement: `SchemaPayload.decode_reads`. Counts are written in full but only read below the
number of addresses, so it asks for an arity that a signature in memory can have.
-/

namespace Clausal

open Decode Decode.Members Json

/-! ### Words -/

theorem Kind.lookup_words (k : Kind) : Kind.words.lookup k.text = some k := by cases k <;> rfl

theorem Role.lookup_words (r : Role) : Role.words.lookup r.text = some r := by cases r <;> rfl

theorem MergePolicy.lookup_words (p : MergePolicy) : MergePolicy.words.lookup p.text = some p := by
  cases p <;> rfl

/-! ### Arguments -/

theorem ArgPayload.decode_reads (p : ArgPayload) : ArgPayload.decode.Reads p.toJson p := by
  intro r
  rw [ArgPayload.decode, toJson, record_of_sublist]
  · simp only [bind, Except.bind, pure, Except.pure]
    rw [optional_text (x := p.datatype), optional_word Role.lookup_words (x := p.role),
      optional_text (x := p.space), optional_text (x := p.name), optional_text (x := p.spec)]
    all_goals simp [List.lookup_append, lookup_member?]
  · simp only [List.append_assoc]
    iterate 4 apply keys_member?_append
    exact keys_member? ..
  · decide
  · decide

theorem DerivedSignature.decode_reads (s : DerivedSignature) :
    DerivedSignature.decode.Reads s.toJson s := by
  intro r
  rw [DerivedSignature.decode, toJson, record_of_sublist (.refl _) (by decide) (by decide)]
  simp only [bind, Except.bind, pure, Except.pure]
  rw [required_ok rfl (texts_reads s.subArgs), required_ok rfl (texts_reads s.objArgs),
    required_ok rfl (texts_reads s.propArgs)]

/-! ### Schemas -/

/-- The members of a stored entity schema after its tag. -/
def FactPayload.body (p : FactPayload) : List (String × Json) :=
  [("name", .str p.name)] ++ member? "arity" (p.arity.map .ofNat) ++
    member? "schema_id" (p.schemaId.map .str) ++ member? "description" (p.description.map .str) ++
    [("merge_policy", .str p.mergePolicy.text),
     ("signature", .arr (p.signature.map ArgPayload.toJson)), ("key_fields", .ofStrings p.keyFields)]

theorem FactPayload.members_eq (p : FactPayload) :
    p.members = ("kind", .str Kind.fact.text) :: p.body := rfl

def FactPayload.keys : List String :=
  ["name", "arity", "schema_id", "description", "merge_policy", "signature", "key_fields"]

theorem FactPayload.keys_body (p : FactPayload) : (p.body.map (·.1)).Sublist keys := by
  simp only [body, List.append_assoc]
  refine .cons_cons _ ?_
  iterate 3 apply keys_member?_append
  exact .refl _

theorem FactPayload.decode_reads (p : FactPayload) (below : ∀ n ∈ p.arity, n < UInt64.size) :
    FactPayload.decode.Reads (.obj p.body) p := by
  intro r
  rw [FactPayload.decode, record_of_sublist p.keys_body (by decide) (by decide)]
  simp only [bind, Except.bind, pure, Except.pure]
  rw [required_text (s := p.name), optional_count (x := p.arity), optional_text (x := p.schemaId),
    optional_text (x := p.description),
    withDefault_ok (a := p.mergePolicy) ?_ (word_reads p.mergePolicy.lookup_words),
    withDefault_ok (a := p.signature) ?_ (list_reads fun a _ => a.decode_reads),
    withDefault_ok (a := p.keyFields) ?_ (texts_reads p.keyFields)]
  any_goals simp [body, List.lookup_append, List.lookup_cons, lookup_member?]
  exact below

/-- An array that is left out when it is empty. -/
theorem RelPayload.withDefault_nonempty? {α : Type} {item : Decoder α} {f : α → Json} {r : Reading}
    {members : List (String × Json)} {name : String} {xs : List α}
    (found : members.lookup name = nonempty? (xs.map f)) (reads : ∀ x ∈ xs, item.Reads (f x) x) :
    (⟨r, Document.ofMembers members⟩ : Decode.Members).withDefault name [] (list item) = .ok xs := by
  cases xs with
  | nil => exact withDefault_missing found
  | cons x rest => exact withDefault_ok found (list_reads reads)

theorem RelPayload.decodeEndpoints_reads (sub obj : List String) :
    RelPayload.decodeEndpoints.Reads
      (.obj [("sub_key_fields", .ofStrings sub), ("obj_key_fields", .ofStrings obj)])
      (sub, obj) := by
  intro r
  rw [decodeEndpoints, record_of_sublist (.refl _) (by decide) (by decide)]
  simp only [bind, Except.bind, pure, Except.pure]
  rw [withDefault_ok rfl (texts_reads sub), withDefault_ok rfl (texts_reads obj)]

def RelPayload.body (p : RelPayload) : List (String × Json) :=
  [("name", .str p.name)] ++ member? "arity" (p.arity.map .ofNat) ++
    member? "schema_id" (p.schemaId.map .str) ++ member? "description" (p.description.map .str) ++
    [("merge_policy", .str p.mergePolicy.text),
     ("sub_schema_id", .str p.subSchemaId), ("obj_schema_id", .str p.objSchemaId),
     ("endpoints", .obj [("sub_key_fields", .ofStrings p.subKeyFields),
       ("obj_key_fields", .ofStrings p.objKeyFields)]),
     ("props", .arr (p.props.map ArgPayload.toJson))] ++
    member? "signature" (nonempty? (p.signature.map ArgPayload.toJson)) ++
    member? "key_fields" (nonempty? (p.keyFields.map .str)) ++
    member? "derived_signature" (p.derivedSignature.map DerivedSignature.toJson)

theorem RelPayload.members_eq (p : RelPayload) :
    p.members = ("kind", .str Kind.rel.text) :: p.body := rfl

def RelPayload.keys : List String :=
  ["name", "arity", "schema_id", "description", "merge_policy", "sub_schema_id", "obj_schema_id",
    "endpoints", "props", "signature", "key_fields", "derived_signature"]

theorem RelPayload.keys_body (p : RelPayload) : (p.body.map (·.1)).Sublist keys := by
  simp only [body, List.append_assoc]
  refine .cons_cons _ ?_
  iterate 3 apply keys_member?_append
  iterate 5 refine .cons_cons _ ?_
  iterate 2 apply keys_member?_append
  exact keys_member? ..

theorem RelPayload.decode_reads (p : RelPayload) (below : ∀ n ∈ p.arity, n < UInt64.size) :
    RelPayload.decode.Reads (.obj p.body) p := by
  intro r
  rw [RelPayload.decode, record_of_sublist p.keys_body (by decide) (by decide)]
  simp only [bind, Except.bind, pure, Except.pure]
  rw [withDefault_ok ?_ (decodeEndpoints_reads p.subKeyFields p.objKeyFields)]
  dsimp only
  rw [required_text (s := p.name), optional_count (x := p.arity), optional_text (x := p.schemaId),
    optional_text (x := p.description),
    withDefault_ok (a := p.mergePolicy) ?_ (word_reads p.mergePolicy.lookup_words),
    required_text (s := p.subSchemaId), required_text (s := p.objSchemaId),
    withDefault_ok (a := p.props) ?_ (list_reads fun a _ => a.decode_reads),
    withDefault_nonempty? ?_ fun (a : ArgPayload) _ => a.decode_reads,
    withDefault_nonempty? ?_ fun s _ => text_reads s,
    optional_ok (f := DerivedSignature.toJson) ?_ fun s _ => ⟨s.decode_reads, obj_ne_null _⟩]
  any_goals simp [body, List.lookup_append, List.lookup_cons, lookup_member?]
  exact below

def SchemaPayload.keys : List String := "kind" :: (FactPayload.keys ++ RelPayload.keys)

theorem SchemaPayload.keys_members (p : SchemaPayload) : p.members.map (·.1) ⊆ keys := by
  cases p with
  | fact p =>
    rw [members, p.members_eq]
    exact List.cons_subset_cons _ fun k hk => List.mem_append_left _ (p.keys_body.subset hk)
  | rel p =>
    rw [members, p.members_eq]
    exact List.cons_subset_cons _ fun k hk => List.mem_append_right _ (p.keys_body.subset hk)

/-- A payload of a schema is read as it was written. -/
theorem SchemaPayload.decode_reads (p : SchemaPayload) (below : ∀ n ∈ p.arity, n < UInt64.size) :
    SchemaPayload.decode.Reads p.toJson p := by
  intro r
  cases p with
  | fact p =>
    rw [SchemaPayload.decode, toJson, members, p.members_eq,
      tagged_of_sublist p.keys_body (by decide) (by decide)]
    simp only [bind, Except.bind, pure, Except.pure]
    rw [p.decode_reads below]
    rfl
  | rel p =>
    rw [SchemaPayload.decode, toJson, members, p.members_eq,
      tagged_of_sublist p.keys_body (by decide) (by decide)]
    simp only [bind, Except.bind, pure, Except.pure]
    rw [p.decode_reads below]
    rfl

/-! ### Payloads fit into texts -/

theorem ArgPayload.fits (depth : Nat) (p : ArgPayload) : p.toJson.Fits (depth + 1) := by
  refine fits_obj ?_
  simp only [List.forall_mem_append, forall_mem_member?_map]
  simp only [fits_str, implies_true, and_self]

theorem DerivedSignature.fits (depth : Nat) (s : DerivedSignature) : s.toJson.Fits (depth + 2) := by
  refine fits_obj ?_
  simp only [List.forall_mem_cons, fits_ofStrings, List.not_mem_nil, false_implies, implies_true,
    and_self]

theorem FactPayload.fits (depth : Nat) (p : FactPayload) (below : ∀ n ∈ p.arity, n < UInt64.size) :
    (obj p.members).Fits (depth + 3) := by
  have args : (arr (p.signature.map ArgPayload.toJson)).Fits (depth + 2) :=
    fits_arr_map fun a _ => a.fits depth
  have arity : ∀ n ∈ p.arity, (ofNat n).Fits (depth + 2) := fun n hn => fits_ofNat _ (below n hn)
  refine fits_obj ?_
  simp only [members, List.forall_mem_append, List.forall_mem_cons, forall_mem_member?_map, fits_str,
    fits_ofStrings, args, List.not_mem_nil, false_implies, implies_true, and_self, and_true, true_and]
  exact arity

theorem RelPayload.fits_nonempty? {depth : Nat} {items : List Json} (h : (arr items).Fits depth) :
    ∀ j ∈ nonempty? items, j.Fits depth := by
  intro j hj
  unfold nonempty? at hj
  split at hj
  · exact absurd hj nofun
  · exact Option.mem_some_iff.1 hj ▸ h

theorem RelPayload.fits (depth : Nat) (p : RelPayload) (below : ∀ n ∈ p.arity, n < UInt64.size) :
    (obj p.members).Fits (depth + 3) := by
  have args (args : List ArgPayload) : (arr (args.map ArgPayload.toJson)).Fits (depth + 2) :=
    fits_arr_map fun a _ => a.fits depth
  have arity : ∀ n ∈ p.arity, (ofNat n).Fits (depth + 2) := fun n hn => fits_ofNat _ (below n hn)
  have endpoints : (obj [("sub_key_fields", .ofStrings p.subKeyFields),
      ("obj_key_fields", .ofStrings p.objKeyFields)]).Fits (depth + 2) := by
    refine fits_obj ?_
    simp only [List.forall_mem_cons, fits_ofStrings, List.not_mem_nil, false_implies, implies_true,
      and_self]
  have derived : ∀ s ∈ p.derivedSignature, s.toJson.Fits (depth + 2) := fun s _ => s.fits depth
  refine fits_obj ?_
  simp only [members, List.forall_mem_append, List.forall_mem_cons, forall_mem_member?_map, fits_str,
    forall_mem_member?, args, endpoints, List.not_mem_nil, false_implies, implies_true, and_self,
    and_true, true_and]
  exact ⟨⟨⟨arity, fits_nonempty? (args p.signature)⟩, fits_nonempty? (fits_ofStrings _ p.keyFields)⟩,
    derived⟩

theorem SchemaPayload.fits (depth : Nat) (p : SchemaPayload)
    (below : ∀ n ∈ p.arity, n < UInt64.size) : p.toJson.Fits (depth + 3) := by
  cases p with
  | fact p => exact p.fits depth below
  | rel p => exact p.fits depth below

end Clausal
