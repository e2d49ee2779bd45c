import Clausal.Schema.Argument

/-!
# Signatures

A signature is a list of arguments with different names. Resolving the specs of a signature gives
every argument a name and a datatype: arguments without a name are called after their position, with
a suffix where that name is taken. A free suffix is always found (`positionName_not_mem`), so the
names come out different (`nodup_names_resolveFrom`).
-/

namespace Clausal

/-- Arguments with different names. -/
structure Signature where
  args : List Arg
  names_nodup : (args.map (·.name)).Nodup
deriving DecidableEq

namespace Signature

def names (s : Signature) : List String := s.args.map (·.name)

def length (s : Signature) : Nat := s.args.length

def find? (s : Signature) (name : String) : Option Arg := s.args.find? (·.name == name)

def position? (s : Signature) (name : String) : Option Nat := s.args.findIdx? (·.name == name)

/-- The names of the arguments of a role. -/
def namesOfRole (s : Signature) (role : Role) : List String :=
  (s.args.filter (·.role == some role)).map (·.name)

theorem namesOfRole_subset (s : Signature) (role : Role) : s.namesOfRole role ⊆ s.names :=
  List.map_subset _ List.filter_sublist.subset

/-- The fields, all of which have to be names of arguments. -/
def checkedFields (s : Signature) (predicate : String) (fields : List String) :
    Except SchemaError { l : List String // l ⊆ s.names } :=
  match h : fields.find? fun field => !s.names.contains field with
  | some field => .error (.unknownKeyField predicate field)
  | none => .ok ⟨fields, fun field mem => by simpa using List.find?_eq_none.1 h field mem⟩

/-! ### Specs with names -/

/-- The names that authors gave to arguments, without blanks around them. -/
def givenNames (specs : List ArgSpec) : List String := specs.filterMap fun s => s.name.map Text.trim

theorem givenNames_cons_some {spec : ArgSpec} {rest : List ArgSpec} {name : String}
    (given : spec.name = some name) :
    givenNames (spec :: rest) = Text.trim name :: givenNames rest := by
  simp [givenNames, given]

theorem givenNames_cons_none {spec : ArgSpec} {rest : List ArgSpec} (unnamed : spec.name = none) :
    givenNames (spec :: rest) = givenNames rest := by
  simp [givenNames, unnamed]

/-- The names in `taken` and those that authors gave; each may be given once. -/
def explicitNames (predicate : String) :
    List String → List ArgSpec → Except SchemaError (List String)
  | taken, [] => .ok taken
  | taken, spec :: rest =>
    match spec.name with
    | none => explicitNames predicate taken rest
    | some given =>
      let name := Text.trim given
      if name = "" then .error (.emptyName .argument)
      else if name ∈ taken then .error (.duplicateArgName predicate name)
      else explicitNames predicate (taken ++ [name]) rest

theorem explicitNames_eq_ok {predicate : String} {taken names : List String} {specs : List ArgSpec}
    (h : explicitNames predicate taken specs = .ok names) : names = taken ++ givenNames specs := by
  induction specs generalizing taken with
  | nil =>
    simp only [explicitNames, Except.ok.injEq] at h
    simp [givenNames, h]
  | cons spec rest ih =>
    simp only [explicitNames] at h
    split at h
    case h_1 unnamed => rw [ih h, givenNames_cons_none unnamed]
    case h_2 name given =>
      split at h
      · cases h
      · split at h
        · cases h
        · rw [ih h, givenNames_cons_some given, List.append_assoc]
          rfl

theorem nodup_of_explicitNames {predicate : String} {taken names : List String}
    {specs : List ArgSpec} (h : explicitNames predicate taken specs = .ok names)
    (distinct : taken.Nodup) : names.Nodup := by
  induction specs generalizing taken with
  | nil =>
    simp only [explicitNames, Except.ok.injEq] at h
    exact h ▸ distinct
  | cons spec rest ih =>
    simp only [explicitNames] at h
    split at h
    case h_1 => exact ih h distinct
    case h_2 name given =>
      split at h
      · cases h
      · split at h
        · cases h
        case isFalse fresh =>
          refine ih h (List.nodup_append.2 ⟨distinct, by simp, ?_⟩)
          rintro a ha b hb rfl
          exact fresh (List.mem_singleton.1 hb ▸ ha)

/-! ### Specs without names -/

/-- The first of `base_j`, `base_(j+1)`, … that is free. Among `taken.length + 1` candidates there
is a free one, so that many tries are enough. -/
def freeSuffix (base : String) (taken : List String) : Nat → Nat → String
  | 0, j => base ++ "_" ++ Text.decimal j
  | tries + 1, j =>
    let candidate := base ++ "_" ++ Text.decimal j
    if candidate ∈ taken then freeSuffix base taken tries (j + 1) else candidate

theorem freeSuffix_not_mem {base : String} {taken : List String} {tries j i : Nat}
    (hi : i ≤ tries) (free : base ++ "_" ++ Text.decimal (j + i) ∉ taken) :
    freeSuffix base taken tries j ∉ taken := by
  induction tries generalizing j i with
  | zero =>
    obtain rfl : i = 0 := by omega
    simpa [freeSuffix] using free
  | succ tries ih =>
    simp only [freeSuffix]
    split
    case isTrue used =>
      cases i with
      | zero => exact absurd used free
      | succ i => exact ih (by omega : i ≤ tries) (by rwa [show j + 1 + i = j + (i + 1) by omega])
    case isFalse h => exact h

theorem suffixed_injective {base : String} {m n : Nat}
    (h : base ++ "_" ++ Text.decimal m = base ++ "_" ++ Text.decimal n) : m = n := by
  have h := congrArg String.toList h
  simp only [String.toList_append] at h
  exact Text.decimal_injective (String.toList_inj.1 (List.append_cancel_left h))

theorem exists_free_suffix (base : String) (taken : List String) (j : Nat) :
    ∃ i, i ≤ taken.length ∧ base ++ "_" ++ Text.decimal (j + i) ∉ taken := by
  refine Classical.byContradiction fun none => ?_
  have used : ∀ i, i ≤ taken.length → base ++ "_" ++ Text.decimal (j + i) ∈ taken := fun i hi =>
    Classical.byContradiction fun h => none ⟨i, hi, h⟩
  let candidates := (List.range (taken.length + 1)).map fun i => base ++ "_" ++ Text.decimal (j + i)
  have distinct : candidates.Nodup := by
    refine List.Pairwise.map _ ?_ List.nodup_range
    intro a b ne h
    exact ne (by have := suffixed_injective h; omega)
  have subset : candidates ⊆ taken := by
    intro c hc
    obtain ⟨i, hi, rfl⟩ := List.mem_map.1 hc
    exact used i (by have := List.mem_range.1 hi; omega)
  have := distinct.length_le_of_subset subset
  simp only [candidates, List.length_map, List.length_range] at this
  omega

/-- The name of an argument without one, from its position counted from one. -/
def positionName (taken : List String) (position : Nat) : String :=
  let base := "Arg" ++ Text.decimal position
  if base ∈ taken then freeSuffix base taken taken.length 2 else base

theorem positionName_not_mem (taken : List String) (position : Nat) :
    positionName taken position ∉ taken := by
  simp only [positionName]
  split
  · obtain ⟨i, hi, free⟩ := exists_free_suffix ("Arg" ++ Text.decimal position) taken 2
    exact freeSuffix_not_mem hi free
  · assumption

/-! ### Resolving -/

/-- A datatype in the form in which it is kept; none is that of texts. -/
def resolvedDatatype (datatype : Option String) : String :=
  let name := Datatype.normalize (datatype.getD "")
  if name = "" then Datatype.default else name

/-- A namespace in the form in which it is kept; a blank one is none. -/
def resolvedSpace (space : Option String) : Option String :=
  match space.map Text.trim with
  | some "" => none
  | other => other

/-- The arguments of specs from a position on; `taken` holds the names that are in use. -/
def resolveFrom (taken : List String) (position : Nat) : List ArgSpec → List Arg
  | [] => []
  | spec :: rest =>
    let name := match spec.name with
      | some given => Text.trim given
      | none => positionName taken position
    let taken := if spec.name.isSome then taken else taken ++ [name]
    ⟨name, resolvedDatatype spec.datatype, spec.role, resolvedSpace spec.space⟩ ::
      resolveFrom taken (position + 1) rest

theorem mem_names_resolveFrom {taken : List String} {position : Nat} {specs : List ArgSpec}
    {name : String} (h : name ∈ (resolveFrom taken position specs).map (·.name)) :
    name ∈ givenNames specs ∨ name ∉ taken := by
  induction specs generalizing taken position with
  | nil => simp [resolveFrom] at h
  | cons spec rest ih =>
    cases given : spec.name with
    | some text =>
      simp only [resolveFrom, given, Option.isSome_some, List.map_cons, List.mem_cons] at h
      rw [givenNames_cons_some given, List.mem_cons]
      rcases h with rfl | h
      · exact .inl (.inl rfl)
      · exact (ih h).imp_left .inr
    | none =>
      simp only [resolveFrom, given, Option.isSome_none, List.map_cons, List.mem_cons] at h
      rw [givenNames_cons_none given]
      rcases h with rfl | h
      · exact .inr (positionName_not_mem taken position)
      · exact (ih h).imp_right fun fresh mem => fresh (by simp [mem])

theorem nodup_names_resolveFrom {taken : List String} {position : Nat} {specs : List ArgSpec}
    (distinct : (givenNames specs).Nodup) (known : givenNames specs ⊆ taken) :
    ((resolveFrom taken position specs).map (·.name)).Nodup := by
  induction specs generalizing taken position with
  | nil => simp [resolveFrom]
  | cons spec rest ih =>
    cases given : spec.name with
    | some name =>
      rw [givenNames_cons_some given] at distinct known
      obtain ⟨notIn, distinct⟩ := List.nodup_cons.1 distinct
      obtain ⟨isTaken, known⟩ := List.cons_subset.1 known
      simp only [resolveFrom, given, Option.isSome_some, List.map_cons, List.nodup_cons]
      refine ⟨fun mem => ?_, ih distinct known⟩
      exact (mem_names_resolveFrom mem).elim notIn fun fresh => fresh isTaken
    | none =>
      rw [givenNames_cons_none given] at distinct known
      simp only [resolveFrom, given, Option.isSome_none, List.map_cons, List.nodup_cons]
      refine ⟨fun mem => ?_, ih distinct fun _ h => List.mem_append_left _ (known h)⟩
      rcases mem_names_resolveFrom mem with h | fresh
      · exact positionName_not_mem taken position (known h)
      · exact fresh (by simp)

/-- The signature of a predicate from its specs. -/
def resolve (predicate : String) (specs : List ArgSpec) : Except SchemaError Signature :=
  match h : explicitNames predicate [] specs with
  | .error e => .error e
  | .ok taken => .ok {
      args := resolveFrom taken 1 specs
      names_nodup := by
        have eq : taken = givenNames specs := explicitNames_eq_ok h
        exact nodup_names_resolveFrom (eq ▸ nodup_of_explicitNames h .nil) (eq ▸ fun _ h => h) }

end Signature

end Clausal
