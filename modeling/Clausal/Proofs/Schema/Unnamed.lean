import Mathlib.Data.List.Nodup
import Clausal.Proofs.Schema.Normal

/-!
# Arguments without a name

Main statement: `Signature.resolve_names`. An argument that is given no name is called after its
position. While a candidate is in use, the next one is the same name with the next suffix
(`Signature.Search`). Nothing bounds this search but the names in use: those that are given anywhere
in the list and those that were found for earlier arguments. All candidates differ, so the search
ends, with the first that is free (`Signature.search_positionName`, `Signature.Search.outcome`).
-/

namespace Clausal.Signature

/-! ### The search for a free name -/

/-- The name of a position, counted from one, before any suffix. -/
def baseName (position : ℕ) : String := "Arg" ++ Text.decimal position

def suffixed (base : String) (j : ℕ) : String := base ++ "_" ++ Text.decimal j

/-- `Search base used next candidate name` says that a search for a name that is not in use, which
has come to `candidate`, ends with `name`. The candidates after it are `base` with the suffixes from
`next` on. -/
inductive Search (base : String) (used : List String) : ℕ → String → String → Prop
  | free {next candidate} (unused : candidate ∉ used) : Search base used next candidate candidate
  | again {next candidate name} (taken : candidate ∈ used)
    (later : Search base used (next + 1) (suffixed base next) name) :
    Search base used next candidate name

section Search

variable {base : String} {used : List String}

/-- What a search ends with, by induction along it: with the first candidate that is free. -/
theorem Search.outcome {next : ℕ} {candidate name : String}
    (h : Search base used next candidate name) :
    name ∉ used ∧ (name = candidate ∨ candidate ∈ used ∧ ∃ j, next ≤ j ∧ name = suffixed base j ∧
      ∀ k, next ≤ k → k < j → suffixed base k ∈ used) := by
  induction h with
  | free unused => exact ⟨unused, .inl rfl⟩
  | @again next candidate name taken later ih =>
    obtain ⟨unused, first | ⟨takenNext, j, le, eq, before⟩⟩ := ih
    · exact ⟨unused, .inr ⟨taken, next, Nat.le_refl _, first, fun k ge less => absurd less (by omega)⟩⟩
    · refine ⟨unused, .inr ⟨taken, j, by omega, eq, fun k ge less => ?_⟩⟩
      rcases Nat.eq_or_lt_of_le ge with rfl | greater
      · exact takenNext
      · exact before k greater less

/-- When a suffix among the next ones is free, a search among these is a search without a bound. -/
theorem search_freeSuffix {tries j i : ℕ} (within : i ≤ tries)
    (unused : suffixed base (j + i) ∉ used) :
    Search base used (j + 1) (suffixed base j) (freeSuffix base used tries j) := by
  induction tries generalizing j i with
  | zero =>
    obtain rfl : i = 0 := by omega
    exact .free unused
  | succ tries ih =>
    simp only [freeSuffix]
    split
    case isTrue taken =>
      cases i with
      | zero => exact absurd taken unused
      | succ i =>
        have unused : suffixed base (j + 1 + i) ∉ used := by rwa [Nat.add_right_comm]
        exact .again taken (ih (by omega) unused)
    case isFalse free => exact .free free

theorem search_positionName (used : List String) (position : ℕ) :
    Search (baseName position) used 2 (baseName position) (positionName used position) := by
  simp only [positionName]
  split
  case isTrue taken =>
    obtain ⟨i, within, unused⟩ := exists_free_suffix (baseName position) used 2
    exact .again taken (search_freeSuffix within unused)
  case isFalse free => exact .free free

/-- Among as many suffixes as there are names in use, and one more, some suffix is free. -/
theorem le_length_of_taken {j : ℕ} (before : ∀ k, 2 ≤ k → k < j → suffixed base k ∈ used) :
    j ≤ used.length + 2 := by
  obtain ⟨i, within, unused⟩ := exists_free_suffix base used 2
  by_contra less
  exact unused (before (2 + i) (by omega) (by omega))

end Search

/-! ### Names for positions -/

/-- What the argument at a position is called while some names are in use. -/
structure IsPositionName (used : List String) (position : ℕ) (name : String) : Prop where
  search : Search (baseName position) used 2 (baseName position) name
  unused : name ∉ used
  base : baseName position ∉ used → name = baseName position
  suffix : baseName position ∈ used → ∃ j, 2 ≤ j ∧ j ≤ used.length + 2 ∧
    name = suffixed (baseName position) j ∧
    ∀ k, 2 ≤ k → k < j → suffixed (baseName position) k ∈ used

theorem isPositionName (used : List String) (position : ℕ) :
    IsPositionName used position (positionName used position) := by
  have search := search_positionName used position
  obtain ⟨unused, outcome⟩ := search.outcome
  refine ⟨search, unused, fun free => ?_, fun taken => ?_⟩
  · exact outcome.resolve_right fun later => free later.1
  · have other : positionName used position ≠ baseName position := fun same =>
      unused (same ▸ taken)
    obtain ⟨-, j, two, eq, before⟩ := outcome.resolve_left other
    exact ⟨j, two, le_length_of_taken before, eq, before⟩

/-- The names that were found for arguments that are given none. -/
def foundNames (specs : List ArgSpec) (args : List Arg) : List String :=
  ((specs.zip args).filter (·.1.name.isNone)).map (·.2.name)

section Found

variable {spec : ArgSpec} {specs : List ArgSpec} {arg : Arg} {args : List Arg}

theorem foundNames_cons_some {name : String} (given : spec.name = some name) :
    foundNames (spec :: specs) (arg :: args) = foundNames specs args := by
  simp [foundNames, given]

theorem foundNames_cons_none (unnamed : spec.name = none) :
    foundNames (spec :: specs) (arg :: args) = arg.name :: foundNames specs args := by
  simp [foundNames, unnamed]

end Found

/-- The names in use before the argument behind the first `i`: all that are given and those that were
found. -/
def namesInUse (specs : List ArgSpec) (args : List Arg) (i : ℕ) : List String :=
  givenNames specs ++ foundNames (specs.take i) args

/-- An argument keeps the name that it is given, or else it is called after its position while some
names are in use. -/
structure IsNamed (used : List String) (position : ℕ) (spec : ArgSpec) (arg : Arg) : Prop where
  given : ∀ name, spec.name = some name → arg.name = Text.trim name
  found : spec.name = none → IsPositionName used position arg.name

/-- What arguments are called, by induction on those that are left: a name that is found is in use
for the ones behind. -/
theorem isNamed_of_resolveFrom {specs : List ArgSpec} {taken : List String} {position i : ℕ}
    {spec : ArgSpec} (here : specs[i]? = some spec) :
    ∃ arg, (resolveFrom taken position specs)[i]? = some arg ∧
      IsNamed (taken ++ foundNames (specs.take i) (resolveFrom taken position specs)) (position + i)
        spec arg := by
  induction specs generalizing taken position i with
  | nil => cases here
  | cons first rest ih =>
    cases i with
    | zero =>
      cases here
      refine ⟨_, rfl, ?_⟩
      rw [List.take_zero, foundNames, List.zip_nil_left, List.filter_nil, List.map_nil,
        List.append_nil, Nat.add_zero]
      constructor
      · intro name given
        simp only [given]
      · intro unnamed
        simp only [unnamed]
        exact isPositionName taken position
    | succ i =>
      -- the induction is on the specs, with more names in use for the rest of them
      have later (taken : List String) :
          ∃ arg, (resolveFrom taken (position + 1) rest)[i]? = some arg ∧
            IsNamed (taken ++ foundNames (rest.take i) (resolveFrom taken (position + 1) rest))
              (position + 1 + i) spec arg := ih here
      have moved : position + 1 + i = position + (i + 1) := by omega
      rw [List.take_succ_cons]
      cases named : first.name with
      | some name =>
        obtain ⟨arg, there, isNamed⟩ := later taken
        simp only [resolveFrom, named, Option.isSome_some, if_true, foundNames_cons_some named]
        exact ⟨arg, there, moved ▸ isNamed⟩
      | none =>
        obtain ⟨arg, there, isNamed⟩ := later (taken ++ [positionName taken position])
        simp only [resolveFrom, named, Option.isSome_none, Bool.false_eq_true, if_false,
          foundNames_cons_none named]
        rw [List.append_assoc, List.singleton_append, moved] at isNamed
        exact ⟨arg, there, isNamed⟩

/-! ### Signatures -/

theorem length_resolveFrom (taken : List String) (position : ℕ) (specs : List ArgSpec) :
    (resolveFrom taken position specs).length = specs.length := by
  induction specs generalizing taken position with
  | nil => rfl
  | cons spec rest ih => rw [resolveFrom, List.length_cons, ih, List.length_cons]

/-- **Arguments get names.** When the names that are given are not blank and differ, resolving ends
with one argument for each spec, under different names. An argument keeps the name that it is given.
Any other is called after its position, with the least suffix that makes the name free: the search
for it, to which no bound is set, ends. -/
theorem resolve_names (predicate : String) {specs : List ArgSpec}
    (given : ∀ name ∈ givenNames specs, name ≠ "") (distinct : (givenNames specs).Nodup) :
    ∃ s, resolve predicate specs = .ok s ∧ s.length = specs.length ∧ s.names.Nodup ∧
      ∀ i spec, specs[i]? = some spec →
        ∃ arg, s.args[i]? = some arg ∧ IsNamed (namesInUse specs s.args i) (i + 1) spec arg := by
  have names : explicitNames predicate [] specs = .ok (givenNames specs) :=
    explicitNames_of_nodup given distinct
  unfold resolve
  split
  case h_1 e failed => cases failed.symm.trans names
  case h_2 taken explicit =>
    cases explicit.symm.trans names
    refine ⟨_, rfl, length_resolveFrom .., nodup_names_resolveFrom distinct fun _ h => h, ?_⟩
    intro i spec here
    rw [Nat.add_comm]
    exact isNamed_of_resolveFrom here

/-- Four arguments, where the first name to try for the first of them and the one after it are given to
others. -/
def contested : List ArgSpec :=
  [.blank, { ArgSpec.blank with name := some "Arg1" }, { ArgSpec.blank with name := some " Arg1_2 " },
    .blank]

example : (resolve "p" contested).toOption.map names = some ["Arg1_3", "Arg1", "Arg1_2", "Arg4"] := by
  decide +kernel

theorem resolve_names_contested :
    (∀ name ∈ givenNames contested, name ≠ "") ∧ (givenNames contested).Nodup ∧
      ∃ s, resolve "p" contested = .ok s ∧ s.length = contested.length ∧ s.names.Nodup ∧
        ∀ i spec, contested[i]? = some spec →
          ∃ arg, s.args[i]? = some arg ∧
            IsNamed (namesInUse contested s.args i) (i + 1) spec arg := by
  have given : ∀ name ∈ givenNames contested, name ≠ "" := by decide +kernel
  have distinct : (givenNames contested).Nodup := by decide +kernel
  exact ⟨given, distinct, resolve_names "p" given distinct⟩

end Clausal.Signature
