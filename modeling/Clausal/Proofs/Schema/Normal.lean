import Clausal.Proofs.Outcomes
import Clausal.Proofs.Text.Blank
import Clausal.Schema.Payload

/-!
# What schemas are made of

Building a schema cuts blanks off names and namespaces, puts datatypes into their normal form and
fills in key fields. What it makes is `IsNormal`, and building a normal schema again from what it
consists of gives the same schema (`FactSchema.build_eq_self`, `RelSchema.build_eq_rebase`).
-/

namespace Clausal

open Text

/-! ### Arguments -/

/-- An argument as resolving leaves it. -/
structure Arg.IsNormal (a : Arg) : Prop where
  trimmed : trim a.name = a.name
  named : a.name ≠ ""
  datatype : Signature.resolvedDatatype (some a.datatype) = a.datatype
  space : Signature.resolvedSpace a.space = a.space

/-- The spec that says all about an argument. -/
def Arg.toSpec (a : Arg) : ArgSpec := ⟨some a.name, some a.datatype, a.role, a.space⟩

theorem ArgSpec.ofPayload_eq_toSpec (a : Arg) : ofPayload a.toPayload = .ok a.toSpec := rfl

theorem mapM_ofPayload_eq_toSpec (args : List Arg) :
    (args.map Arg.toPayload).mapM ArgSpec.ofPayload = .ok (args.map Arg.toSpec) :=
  mapM_map_eq_ok fun a _ => ArgSpec.ofPayload_eq_toSpec a

namespace Signature

theorem freeSuffix_cases (base : String) (taken : List String) (tries j : Nat) :
    ∃ i, freeSuffix base taken tries j = base ++ "_" ++ decimal i := by
  induction tries generalizing j with
  | zero => exact ⟨j, rfl⟩
  | succ tries ih =>
    simp only [freeSuffix]
    split
    · exact ih (j + 1)
    · exact ⟨j, rfl⟩

theorem positionName_cases (taken : List String) (position : Nat) :
    positionName taken position = "Arg" ++ decimal position ∨
      ∃ i, positionName taken position = "Arg" ++ decimal position ++ "_" ++ decimal i := by
  simp only [positionName]
  split
  · exact .inr (freeSuffix_cases ..)
  · exact .inl rfl

theorem trim_positionName (taken : List String) (position : Nat) :
    trim (positionName taken position) = positionName taken position := by
  have letters : ∀ c ∈ "Arg".toList, isBlank c = false := by simp [isBlank]
  have line : ∀ c ∈ "_".toList, isBlank c = false := by simp [isBlank]
  refine trim_of_forall fun c hc => ?_
  rcases positionName_cases taken position with eq | ⟨i, eq⟩
  · rw [eq, String.toList_append, List.mem_append] at hc
    exact hc.elim (letters c) isBlank_of_mem_decimal
  · simp only [eq, String.toList_append, List.mem_append] at hc
    rcases hc with ((hc | hc) | hc) | hc
    exacts [letters c hc, isBlank_of_mem_decimal hc, line c hc, isBlank_of_mem_decimal hc]

theorem positionName_ne_empty (taken : List String) (position : Nat) :
    positionName taken position ≠ "" := by
  intro eq
  have := congrArg String.toList eq
  rcases positionName_cases taken position with h | ⟨i, h⟩ <;>
    simp [h, String.toList_append] at this

theorem resolvedDatatype_resolvedDatatype (datatype : Option String) :
    resolvedDatatype (some (resolvedDatatype datatype)) = resolvedDatatype datatype := by
  have default : Datatype.normalize Datatype.default = Datatype.default := by decide
  simp only [resolvedDatatype, Option.getD_some]
  split
  case isTrue => rw [default]; rfl
  case isFalse ne => rw [Datatype.normalize_normalize, if_neg ne]

theorem resolvedSpace_resolvedSpace (space : Option String) :
    resolvedSpace (resolvedSpace space) = resolvedSpace space := by
  cases space with
  | none => rfl
  | some s =>
    by_cases blank : trim s = ""
    · have : resolvedSpace (some s) = none := by simp [resolvedSpace, blank]
      rw [this]
      rfl
    · have : resolvedSpace (some s) = some (trim s) := by simp [resolvedSpace, blank]
      rw [this]
      simp [resolvedSpace, trim_trim, blank]

theorem isNormal_resolved {a : Arg} {datatype space : Option String} (trimmed : trim a.name = a.name)
    (named : a.name ≠ "") (hd : a.datatype = resolvedDatatype datatype)
    (hs : a.space = resolvedSpace space) : a.IsNormal :=
  ⟨trimmed, named, by rw [hd, resolvedDatatype_resolvedDatatype],
    by rw [hs, resolvedSpace_resolvedSpace]⟩

/-! ### Signatures -/

theorem given_ne_empty {predicate : String} {taken names : List String} {specs : List ArgSpec}
    (h : explicitNames predicate taken specs = .ok names) : ∀ n ∈ givenNames specs, n ≠ "" := by
  induction specs generalizing taken with
  | nil => simp [givenNames]
  | cons spec rest ih =>
    simp only [explicitNames] at h
    split at h
    case h_1 unnamed =>
      rw [givenNames_cons_none unnamed]
      exact ih h
    case h_2 name given =>
      rw [givenNames_cons_some given]
      split at h
      · cases h
      case isFalse nonempty =>
        split at h
        · cases h
        · intro n hn
          rcases List.mem_cons.1 hn with rfl | hn
          · exact nonempty
          · exact ih h n hn

theorem isNormal_of_mem_resolveFrom {taken : List String} {position : Nat} {specs : List ArgSpec}
    (given : ∀ n ∈ givenNames specs, n ≠ "") :
    ∀ a ∈ resolveFrom taken position specs, a.IsNormal := by
  induction specs generalizing taken position with
  | nil => simp [resolveFrom]
  | cons spec rest ih =>
    intro a ha
    cases name : spec.name with
    | none =>
      rw [givenNames_cons_none name] at given
      simp only [resolveFrom, name, List.mem_cons] at ha
      rcases ha with eq | ha
      · exact isNormal_resolved (by rw [eq, trim_positionName])
          (by rw [eq]; exact positionName_ne_empty taken position) (by rw [eq]) (by rw [eq])
      · exact ih given a ha
    | some text =>
      rw [givenNames_cons_some name] at given
      simp only [resolveFrom, name, List.mem_cons] at ha
      rcases ha with eq | ha
      · exact isNormal_resolved (by rw [eq, trim_trim])
          (by rw [eq]; exact given _ List.mem_cons_self) (by rw [eq]) (by rw [eq])
      · exact ih (fun n hn => given n (List.mem_cons_of_mem _ hn)) a ha

/-- All arguments are as resolving leaves them. -/
def IsNormal (s : Signature) : Prop := ∀ a ∈ s.args, a.IsNormal

theorem isNormal_of_resolve {predicate : String} {specs : List ArgSpec} {s : Signature}
    (h : resolve predicate specs = .ok s) : s.IsNormal := by
  unfold resolve at h
  split at h
  · cases h
  case h_2 taken names =>
    cases h
    exact isNormal_of_mem_resolveFrom (given_ne_empty names)

/-- Names that are given and differ are in use after those that are. -/
theorem explicitNames_of_nodup {predicate : String} {taken : List String} {specs : List ArgSpec}
    (given : ∀ name ∈ givenNames specs, name ≠ "") (distinct : (taken ++ givenNames specs).Nodup) :
    explicitNames predicate taken specs = .ok (taken ++ givenNames specs) := by
  induction specs generalizing taken with
  | nil => rw [explicitNames, givenNames, List.filterMap_nil, List.append_nil]
  | cons spec rest ih =>
    cases named : spec.name with
    | none =>
      rw [givenNames_cons_none named] at given distinct ⊢
      simp only [explicitNames, named]
      exact ih given distinct
    | some name =>
      rw [givenNames_cons_some named] at given distinct ⊢
      obtain ⟨nonempty, given⟩ := List.forall_mem_cons.1 given
      have fresh : Text.trim name ∉ taken := fun mem =>
        (List.nodup_append.1 distinct).2.2 _ mem _ List.mem_cons_self rfl
      rw [List.append_cons] at distinct ⊢
      simp only [explicitNames, named, if_neg nonempty, if_neg fresh]
      exact ih given distinct

theorem givenNames_map_toSpec {args : List Arg} (normal : ∀ a ∈ args, a.IsNormal) :
    givenNames (args.map Arg.toSpec) = args.map (·.name) := by
  rw [givenNames, List.filterMap_map, ← List.filterMap_eq_map]
  exact List.filterMap_congr fun a ha => congrArg some (normal a ha).trimmed

theorem resolveFrom_map_toSpec {args : List Arg} (normal : ∀ a ∈ args, a.IsNormal)
    (taken : List String) (position : Nat) :
    resolveFrom taken position (args.map Arg.toSpec) = args := by
  induction args generalizing taken position with
  | nil => rfl
  | cons a rest ih =>
    have first := normal a List.mem_cons_self
    rw [List.map_cons, resolveFrom, ih fun b hb => normal b (List.mem_cons_of_mem _ hb)]
    simp only [Arg.toSpec, first.trimmed, first.datatype, first.space]

/-- A normal signature is resolved from its own arguments. -/
theorem resolve_map_toSpec {s : Signature} (normal : s.IsNormal) (predicate : String) :
    resolve predicate (s.args.map Arg.toSpec) = .ok s := by
  have same := givenNames_map_toSpec normal
  have names : explicitNames predicate [] (s.args.map Arg.toSpec) = .ok (s.args.map (·.name)) := by
    rw [explicitNames_of_nodup ?_ (same ▸ s.names_nodup), same]
    · rfl
    · rw [same]
      exact List.forall_mem_map.2 fun a ha => (normal a ha).named
  unfold resolve
  split
  case h_1 failed => simp [failed] at names
  case h_2 =>
    obtain ⟨args, _⟩ := s
    simp only [resolveFrom_map_toSpec normal]

end Signature

/-! ### Names and key fields -/

theorem checkedName_eq_ok {given name : String} (h : checkedName given = .ok name) :
    trim name = name ∧ name ≠ "" := by
  simp only [checkedName] at h
  split at h
  · cases h
  case isFalse nonempty =>
    cases h
    exact ⟨trim_trim given, nonempty⟩

theorem checkedName_of_trimmed {name : String} (trimmed : trim name = name) (named : name ≠ "") :
    checkedName name = .ok name := by
  simp only [checkedName, trimmed, if_neg named]

theorem Signature.checkedFields_of_subset {s : Signature} {fields : List String}
    (subset : fields ⊆ s.names) (predicate : String) :
    s.checkedFields predicate fields = .ok ⟨fields, subset⟩ := by
  unfold checkedFields
  split
  case h_1 field unknown =>
    have := List.find?_some unknown
    simp [subset (List.mem_of_find?_eq_some unknown)] at this
  case h_2 => rfl

theorem Signature.checkedFields_eq_ok {s : Signature} {predicate : String} {fields : List String}
    {keys : { l : List String // l ⊆ s.names }} (h : s.checkedFields predicate fields = .ok keys) :
    keys.1 = fields := by
  unfold checkedFields at h
  split at h
  · cases h
  · cases h
    rfl

/-! ### Entity schemas -/

namespace FactSchema

/-- An entity schema as building leaves it. -/
structure IsNormal (f : FactSchema) : Prop where
  trimmed : trim f.name = f.name
  named : f.name ≠ ""
  signature : f.signature.IsNormal
  keys : f.keyFields = [] → derivedKeyFields f.signature = []

theorem keys_resolveKeyFields {name : String} {signature : Signature} {declared : List String}
    {keys : { l : List String // l ⊆ signature.names }}
    (h : resolveKeyFields name signature declared = .ok keys) (none : keys.1 = []) :
    derivedKeyFields signature = [] := by
  unfold resolveKeyFields at h
  split at h
  case isTrue =>
    cases h
    exact none
  case isFalse given => exact absurd ((Signature.checkedFields_eq_ok h).symm.trans none) given

theorem isNormal_of_build {name : String} {specs : List ArgSpec} {description : Option String}
    {mergePolicy : MergePolicy} {keyFields : List String} {f : FactSchema}
    (h : build name specs description mergePolicy keyFields = .ok f) : f.IsNormal := by
  obtain ⟨name, checked, h⟩ := bind_eq_ok.1 h
  obtain ⟨signature, resolved, h⟩ := bind_eq_ok.1 h
  obtain ⟨keys, derived, h⟩ := bind_eq_ok.1 h
  cases h
  obtain ⟨trimmed, named⟩ := checkedName_eq_ok checked
  exact ⟨trimmed, named, Signature.isNormal_of_resolve resolved, keys_resolveKeyFields derived⟩

theorem resolveKeyFields_eq_self {f : FactSchema} (normal : f.IsNormal) :
    resolveKeyFields f.name f.signature f.keyFields = .ok ⟨f.keyFields, f.keyFields_subset⟩ := by
  unfold resolveKeyFields
  split
  case isTrue none => simp only [normal.keys none, none]
  case isFalse => exact Signature.checkedFields_of_subset f.keyFields_subset f.name

/-- A normal entity schema is built from what it consists of. -/
theorem build_eq_self {f : FactSchema} (normal : f.IsNormal) :
    build f.name (f.signature.args.map Arg.toSpec) f.description f.mergePolicy f.keyFields =
      .ok f := by
  rw [build, checkedName_of_trimmed normal.trimmed normal.named, ok_bind,
    Signature.resolve_map_toSpec normal.signature, ok_bind, resolveKeyFields_eq_self normal, ok_bind]
  obtain ⟨name, signature, keyFields, _, description, mergePolicy, id, rfl⟩ := f
  rfl

end FactSchema

/-! ### Relation schemas -/

theorem Schema.endpointFact_eq_ok {relation : String} {side : Side} {s : Schema} {f : FactSchema}
    (h : endpointFact relation side s = .ok f) : s = .fact f := by
  cases s with
  | fact g => exact congrArg fact (Except.ok.inj h)
  | rel r => cases h

namespace RelSchema

/-- A relation carries the schemas that it is built over. -/
theorem endpoints_of_build {name : String} {sub obj : Schema} {specs : List ArgSpec}
    {subKeyFields objKeyFields : List String} {description : Option String} {policy : MergePolicy}
    {r : RelSchema}
    (h : build name sub obj specs subKeyFields objKeyFields description policy = .ok r) :
    sub = .fact r.sub ∧ obj = .fact r.obj := by
  obtain ⟨_, -, h⟩ := bind_eq_ok.1 h
  obtain ⟨f, isSub, h⟩ := bind_eq_ok.1 h
  obtain ⟨g, isObj, h⟩ := bind_eq_ok.1 h
  obtain ⟨_, -, h⟩ := bind_eq_ok.1 h
  obtain ⟨_, -, h⟩ := bind_eq_ok.1 h
  obtain ⟨_, -, h⟩ := bind_eq_ok.1 h
  split at h
  case h_1 => cases h
  case h_2 =>
    cases h
    exact ⟨Schema.endpointFact_eq_ok isSub, Schema.endpointFact_eq_ok isObj⟩

/-- A relation schema as building leaves it. -/
structure IsNormal (r : RelSchema) : Prop where
  trimmed : trim r.name = r.name
  named : r.name ≠ ""
  props : r.props.IsNormal
  keys : ∀ side, r.keyFieldsOf side = [] → (r.endpoint side).keyFields = []

theorem keys_resolveKeyFields {endpoint : FactSchema} {declared : List String}
    {keys : { l : List String // l ⊆ endpoint.signature.names }}
    (h : resolveKeyFields endpoint declared = .ok keys) (none : keys.1 = []) :
    endpoint.keyFields = [] := by
  unfold resolveKeyFields at h
  split at h
  case isTrue =>
    cases h
    exact none
  case isFalse given => exact absurd ((Signature.checkedFields_eq_ok h).symm.trans none) given

theorem isNormal_of_build {name : String} {sub obj : Schema} {propSpecs : List ArgSpec}
    {subKeyFields objKeyFields : List String} {description : Option String}
    {mergePolicy : MergePolicy} {r : RelSchema}
    (h : build name sub obj propSpecs subKeyFields objKeyFields description mergePolicy = .ok r) :
    r.IsNormal := by
  obtain ⟨name, checked, h⟩ := bind_eq_ok.1 h
  obtain ⟨sub, -, h⟩ := bind_eq_ok.1 h
  obtain ⟨obj, -, h⟩ := bind_eq_ok.1 h
  obtain ⟨subKeys, subDerived, h⟩ := bind_eq_ok.1 h
  obtain ⟨objKeys, objDerived, h⟩ := bind_eq_ok.1 h
  obtain ⟨props, resolved, h⟩ := bind_eq_ok.1 h
  obtain ⟨trimmed, named⟩ := checkedName_eq_ok checked
  split at h
  · cases h
  · cases h
    refine ⟨trimmed, named, Signature.isNormal_of_resolve resolved, fun side none => ?_⟩
    cases side with
    | sub => exact keys_resolveKeyFields subDerived none
    | obj => exact keys_resolveKeyFields objDerived none

theorem resolveKeyFields_eq_self {endpoint : FactSchema} {keyFields : List String}
    (subset : keyFields ⊆ endpoint.signature.names)
    (keys : keyFields = [] → endpoint.keyFields = []) :
    resolveKeyFields endpoint keyFields = .ok ⟨keyFields, subset⟩ := by
  unfold resolveKeyFields
  split
  case isTrue none => simp only [keys none, none]
  case isFalse => exact Signature.checkedFields_of_subset subset endpoint.name

end RelSchema

/-! ### Relations between other entity schemas -/

/-- Entity schemas that differ in description and merge policy only. -/
structure FactSchema.Agrees (f g : FactSchema) : Prop where
  name : f.name = g.name
  signature : f.signature = g.signature
  keyFields : f.keyFields = g.keyFields

theorem FactSchema.Agrees.refl (f : FactSchema) : f.Agrees f := ⟨rfl, rfl, rfl⟩

theorem FactSchema.Agrees.id {f g : FactSchema} (h : f.Agrees g) : f.id = g.id := by
  rw [f.id_eq, g.id_eq, h.name, h.signature, h.keyFields]

namespace RelSchema

theorem endpointArgs_of_agrees {f g : FactSchema} (h : f.Agrees g) (keyFields : List String)
    (side : Side) : endpointArgs f keyFields side = endpointArgs g keyFields side := by
  rw [endpointArgs, endpointArgs, h.signature]

/-- The relation schema with other entity schemas in place of those it has. -/
def rebase (r : RelSchema) {sub obj : FactSchema} (hs : sub.Agrees r.sub) (ho : obj.Agrees r.obj) :
    RelSchema :=
  { r with
    sub, obj
    subKeyFields_subset := hs.signature ▸ r.subKeyFields_subset
    objKeyFields_subset := ho.signature ▸ r.objKeyFields_subset
    names_nodup := by
      have := r.names_nodup
      rwa [argsOf, ← endpointArgs_of_agrees hs, ← endpointArgs_of_agrees ho] at this
    id_eq := by rw [hs.id, ho.id, r.id_eq] }

variable {r : RelSchema} {sub obj : FactSchema} (hs : sub.Agrees r.sub) (ho : obj.Agrees r.obj)

theorem rebase_self : r.rebase (.refl r.sub) (.refl r.obj) = r := rfl

/-- Nothing of the entity schemas is stored but what agrees. -/
theorem toPayload_rebase : (r.rebase hs ho).toPayload = r.toPayload := by
  simp only [toPayload, rebase, signature, keyFields, argsOf, hs.id, ho.id,
    endpointArgs_of_agrees hs, endpointArgs_of_agrees ho]

/-- A normal relation schema is built from what it consists of. -/
theorem build_eq_rebase (normal : r.IsNormal) :
    build r.name (.fact sub) (.fact obj) (r.props.args.map Arg.toSpec) r.subKeyFields
      r.objKeyFields r.description r.mergePolicy = .ok (r.rebase hs ho) := by
  have subKeys : resolveKeyFields sub r.subKeyFields =
      .ok ⟨r.subKeyFields, (r.rebase hs ho).subKeyFields_subset⟩ :=
    resolveKeyFields_eq_self _ fun none => hs.keyFields.trans (normal.keys .sub none)
  have objKeys : resolveKeyFields obj r.objKeyFields =
      .ok ⟨r.objKeyFields, (r.rebase hs ho).objKeyFields_subset⟩ :=
    resolveKeyFields_eq_self _ fun none => ho.keyFields.trans (normal.keys .obj none)
  rw [build, checkedName_of_trimmed normal.trimmed normal.named, ok_bind, Schema.endpointFact, ok_bind,
    Schema.endpointFact, ok_bind, subKeys, ok_bind, objKeys, ok_bind,
    Signature.resolve_map_toSpec normal.props, ok_bind]
  split
  case h_1 arg repeated =>
    have := firstRepeat?_eq_none_iff.2 ⟨(r.rebase hs ho).names_nodup,
      fun _ _ => List.not_mem_nil⟩
    exact absurd (repeated.symm.trans this) nofun
  case h_2 =>
    refine congrArg Except.ok ?_
    simp only [rebase, r.id_eq, hs.id, ho.id]

end RelSchema

/-! ### Loading -/

namespace Schema

/-- What a schema declares of itself is what an equal schema is. -/
theorem checkDeclared_toPayload {s t : Schema} (id : t.id = s.id) (arity : t.arity = s.arity) :
    checkDeclared s.toPayload t = .ok () := by
  have declaredId : s.toPayload.schemaId = some s.id := by cases s <;> rfl
  have declaredArity : s.toPayload.arity = some s.arity := by cases s <;> rfl
  simp [checkDeclared, declaredId, declaredArity, id, arity]

/-- A normal entity schema is loaded as it was stored. -/
theorem ofPayload_fact {f : FactSchema} (normal : f.IsNormal) (find? : String → Option Schema) :
    ofPayload (.fact f.toPayload) find? = .ok (.fact f) := by
  have content : ofContent find? (.fact f.toPayload) = .ok (.fact f) := by
    rw [ofContent, FactSchema.toPayload, mapM_ofPayload_eq_toSpec, ok_bind,
      FactSchema.build_eq_self normal]
    rfl
  have declared : checkDeclared (.fact f.toPayload) (.fact f) = .ok () :=
    checkDeclared_toPayload (s := .fact f) rfl rfl
  rw [ofPayload, content, ok_bind, declared]
  rfl

/-- A normal relation schema is loaded with the entity schemas that are found for its endpoints. -/
theorem ofPayload_rel {r : RelSchema} (normal : r.IsNormal) {find? : String → Option Schema}
    {sub obj : FactSchema} (hs : sub.Agrees r.sub) (ho : obj.Agrees r.obj)
    (foundSub : find? r.sub.id = some (.fact sub)) (foundObj : find? r.obj.id = some (.fact obj)) :
    ofPayload (.rel r.toPayload) find? = .ok (.rel (r.rebase hs ho)) := by
  have content : ofContent find? (.rel r.toPayload) = .ok (.rel (r.rebase hs ho)) := by
    rw [ofContent, RelSchema.toPayload]
    dsimp only
    rw [storedEndpoint, foundSub, ok_bind, storedEndpoint, foundObj, ok_bind,
      mapM_ofPayload_eq_toSpec, ok_bind, RelSchema.build_eq_rebase hs ho normal]
    rfl
  have declared : checkDeclared (.rel r.toPayload) (.rel (r.rebase hs ho)) = .ok () :=
    checkDeclared_toPayload (s := .rel r) rfl (by
      have := congrArg RelPayload.arity (RelSchema.toPayload_rebase hs ho)
      exact Option.some.inj this)
  rw [ofPayload, content, ok_bind, declared]
  rfl

/-! ### Schemas that come from declarations and payloads -/

/-- A schema as building leaves it. -/
def IsNormal : Schema → Prop
  | .fact f => f.IsNormal
  | .rel r => r.IsNormal

/-- The entity schemas inside a schema. -/
def endpoints : Schema → List Schema
  | .fact _ => []
  | .rel r => [.fact r.sub, .fact r.obj]

/-- A normal schema is loaded as it was stored when the entity schemas inside it are found. -/
theorem ofPayload_eq_self {s : Schema} (normal : s.IsNormal) {find? : String → Option Schema}
    (found : ∀ e ∈ s.endpoints, find? e.id = some e) : ofPayload s.toPayload find? = .ok s := by
  cases s with
  | fact f => exact ofPayload_fact normal find?
  | rel r =>
    have sub : find? r.sub.id = some (.fact r.sub) := found _ List.mem_cons_self
    have obj : find? r.obj.id = some (.fact r.obj) :=
      found _ (List.mem_cons_of_mem _ List.mem_cons_self)
    exact ofPayload_rel normal (.refl _) (.refl _) sub obj

/-- The schemas that there are: those of declarations and those of payloads. -/
inductive Made : Schema → Prop
  | fact {d s} (h : FactDeclaration.build d = .ok s) : Made s
  | rel {d s} (h : RelDeclaration.build d = .ok s) : Made s
  | stored {p find? s} (h : ofPayload p find? = .ok s) : Made s

theorem isNormal_of_ofContent {find? : String → Option Schema} {p : SchemaPayload} {s : Schema}
    (h : ofContent find? p = .ok s) : s.IsNormal := by
  cases p with
  | fact p =>
    obtain ⟨specs, -, h⟩ := bind_eq_ok.1 h
    obtain ⟨f, built, h⟩ := bind_eq_ok.1 h
    cases h
    exact FactSchema.isNormal_of_build built
  | rel p =>
    obtain ⟨sub, -, h⟩ := bind_eq_ok.1 h
    obtain ⟨obj, -, h⟩ := bind_eq_ok.1 h
    obtain ⟨props, -, h⟩ := bind_eq_ok.1 h
    obtain ⟨r, built, h⟩ := bind_eq_ok.1 h
    cases h
    exact RelSchema.isNormal_of_build built

theorem isNormal_of_ofPayload {find? : String → Option Schema} {p : SchemaPayload} {s : Schema}
    (h : ofPayload p find? = .ok s) : s.IsNormal := by
  obtain ⟨t, content, h⟩ := bind_eq_ok.1 h
  obtain ⟨-, -, h⟩ := bind_eq_ok.1 h
  cases h
  exact isNormal_of_ofContent content

theorem storedEndpoint_eq_ok {find? : String → Option Schema} {relation id : String} {s : Schema}
    (h : storedEndpoint find? relation id = .ok s) : find? id = some s := by
  unfold storedEndpoint at h
  split at h
  case h_1 found => exact found.trans (congrArg some (Except.ok.inj h))
  case h_2 => cases h

/-- A loaded schema carries what was found for its endpoints. -/
theorem exists_find?_of_ofPayload {find? : String → Option Schema} {p : SchemaPayload} {s : Schema}
    (h : ofPayload p find? = .ok s) : ∀ e ∈ s.endpoints, ∃ id, find? id = some e := by
  obtain ⟨t, content, h⟩ := bind_eq_ok.1 h
  obtain ⟨-, -, h⟩ := bind_eq_ok.1 h
  cases h
  cases p with
  | fact p =>
    -- an entity schema has no endpoints
    obtain ⟨_, -, content⟩ := bind_eq_ok.1 content
    obtain ⟨_, -, content⟩ := bind_eq_ok.1 content
    cases content
    exact fun e he => absurd he List.not_mem_nil
  | rel p =>
    obtain ⟨sub, foundSub, content⟩ := bind_eq_ok.1 content
    obtain ⟨obj, foundObj, content⟩ := bind_eq_ok.1 content
    obtain ⟨_, -, content⟩ := bind_eq_ok.1 content
    obtain ⟨r, built, content⟩ := bind_eq_ok.1 content
    cases content
    obtain ⟨rfl, rfl⟩ := RelSchema.endpoints_of_build built
    intro e he
    rcases List.mem_pair.1 he with rfl | rfl
    exacts [⟨_, storedEndpoint_eq_ok foundSub⟩, ⟨_, storedEndpoint_eq_ok foundObj⟩]

theorem Made.isNormal {s : Schema} (h : s.Made) : s.IsNormal := by
  cases h with
  | fact h =>
    obtain ⟨specs, -, h⟩ := bind_eq_ok.1 h
    obtain ⟨f, built, h⟩ := bind_eq_ok.1 h
    cases h
    exact FactSchema.isNormal_of_build built
  | rel h =>
    obtain ⟨specs, -, h⟩ := bind_eq_ok.1 h
    obtain ⟨r, built, h⟩ := bind_eq_ok.1 h
    cases h
    exact RelSchema.isNormal_of_build built
  | stored h => exact isNormal_of_ofPayload h

/-- The declaration that writes out what an entity schema consists of. -/
def declarationOfFact (f : FactSchema) : FactDeclaration :=
  ⟨f.name, f.signature.args.map (.spec ·.toSpec), f.description, f.mergePolicy, f.keyFields⟩

/-- The declaration that writes out what a relation schema consists of. -/
def declarationOfRel (r : RelSchema) : RelDeclaration :=
  ⟨r.name, .fact r.sub, .fact r.obj, r.props.args.map (.spec ·.toSpec), r.subKeyFields,
    r.objKeyFields, r.description, r.mergePolicy⟩

theorem mapM_toSpec (args : List Arg) :
    (args.map fun a => ArgInput.spec a.toSpec).mapM ArgInput.toSpec = .ok (args.map Arg.toSpec) :=
  mapM_map_eq_ok fun _ _ => rfl

theorem build_declarationOfFact {f : FactSchema} (normal : f.IsNormal) :
    (declarationOfFact f).build = .ok (.fact f) := by
  rw [FactDeclaration.build, declarationOfFact, mapM_toSpec, ok_bind,
    FactSchema.build_eq_self normal]
  rfl

theorem build_declarationOfRel {r : RelSchema} (normal : r.IsNormal) :
    (declarationOfRel r).build = .ok (.rel r) := by
  rw [RelDeclaration.build, declarationOfRel, mapM_toSpec, ok_bind,
    RelSchema.build_eq_rebase (.refl _) (.refl _) normal, RelSchema.rebase_self]
  rfl

/-- The schemas that there are are those in normal form. -/
theorem made_iff_isNormal {s : Schema} : s.Made ↔ s.IsNormal := by
  refine ⟨Made.isNormal, fun normal => ?_⟩
  cases s with
  | fact f => exact .fact (build_declarationOfFact normal)
  | rel r => exact .rel (build_declarationOfRel normal)

end Schema

/-! ### Two schemas -/

/-- People, who are known by a number. -/
def FactSchema.person : FactSchema where
  name := "person"
  signature := ⟨[⟨"number", "int", some .id, none⟩, ⟨"weight", "float", none, none⟩], by decide⟩
  keyFields := ["number"]
  keyFields_subset := by decide
  description := none
  mergePolicy := .keepAll
  id := _
  id_eq := rfl

theorem FactSchema.isNormal_person : person.IsNormal where
  trimmed := by decide +kernel
  named := by decide
  signature a ha := by
    rcases List.mem_pair.1 ha with rfl | rfl
    · exact ⟨by decide +kernel, by decide, by decide +kernel, rfl⟩
    · exact ⟨by decide +kernel, by decide, by decide +kernel, rfl⟩
  keys none := absurd none (by decide)

/-- Who knows whom, and since which year. -/
def RelSchema.knows : RelSchema where
  name := "knows"
  sub := .person
  obj := .person
  subKeyFields := ["number"]
  subKeyFields_subset := by decide
  objKeyFields := ["number"]
  objKeyFields_subset := by decide
  props := ⟨[⟨"since", "int", none, none⟩], by decide⟩
  names_nodup := by decide +kernel
  description := none
  mergePolicy := .keepAll
  id := _
  id_eq := rfl

theorem RelSchema.isNormal_knows : knows.IsNormal where
  trimmed := by decide +kernel
  named := by decide
  props a ha := by
    cases List.mem_singleton.1 ha
    exact ⟨by decide +kernel, by decide, by decide +kernel, rfl⟩
  keys side none := by cases side <;> exact absurd none (by decide)

end Clausal
