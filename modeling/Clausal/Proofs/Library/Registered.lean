import Mathlib.Data.List.Nodup
import Clausal.Proofs.Library.Declared
import Clausal.Proofs.Outcomes

/-!
# What a library holds

Main statement: `Library.Log.holds_run`. Specs are inserted one after the other, and some insertions
fail. What succeeds is kept in step with the library (`Library.Log.perm_run`); the rest is true of any
library that holds some specs, since a library carries what its two maps have to do with each other.
Two predicates with different texts and one digest are the only specs of which the later one hides
the earlier one.
-/

namespace Clausal

/-! ### Specs that can be declared -/

/-- A spec has a name that is not that of an aggregate or cut, and a datatype for each argument if it
has datatypes at all. -/
structure LibrarySpec.IsDeclarable (s : LibrarySpec) : Prop where
  named : Text.trim s.name ≠ ""
  allowed : isDisallowed s.name = false
  typed : ∀ datatypes ∈ s.signature, datatypes.length = s.arity

theorem LibrarySpec.check_eq_ok_iff {s : LibrarySpec} : s.check = .ok () ↔ s.IsDeclarable := by
  unfold check
  by_cases blank : Text.trim s.name = ""
  · rw [if_pos blank]
    exact iff_of_false nofun fun h => h.named blank
  by_cases disallowed : isDisallowed s.name = true
  · rw [if_neg blank, if_pos disallowed]
    exact iff_of_false nofun fun h => Bool.eq_false_iff.1 h.allowed disallowed
  have allowed := Bool.eq_false_iff.2 disallowed
  rw [if_neg blank, if_neg disallowed]
  cases declared : s.signature with
  | none => exact iff_of_true rfl ⟨blank, allowed, by simp [declared]⟩
  | some datatypes =>
    dsimp only
    by_cases typed : datatypes.length = s.arity
    · rw [if_pos typed]
      exact iff_of_true rfl ⟨blank, allowed, by simpa [declared] using typed⟩
    · rw [if_neg typed]
      exact iff_of_false nofun fun h => typed (h.typed _ declared)

theorem LibrarySpec.kind_of_schemaId? {s : LibrarySpec} {id : String}
    (named : s.schemaId? = some id) : s.kind = .predicate := (schemaId?_eq_some_iff.1 named).1

namespace Library

variable {l m : Library} {accepted : List LibrarySpec}

/-! ### One insertion -/

theorem contains_iff {key : SpecKey} :
    l.specs.contains key = true ↔ key ∈ l.specs.values.map LibrarySpec.key := by
  rw [SortedMap.contains, Option.isSome_iff_exists, List.mem_map]
  exact exists_congr fun s => get?_eq_some_iff

/-- A spec is inserted when it can be declared and its key is new. -/
theorem exists_insert_iff {s : LibrarySpec} : (∃ m, l.insert s = .ok m) ↔
    s.IsDeclarable ∧ s.key ∉ l.specs.values.map LibrarySpec.key := by
  rw [← LibrarySpec.check_eq_ok_iff, ← contains_iff, Bool.not_eq_true]
  constructor
  · rintro ⟨m, inserted⟩
    obtain ⟨valid, fresh, -⟩ := insert_eq_ok_iff.1 inserted
    exact ⟨valid, fresh⟩
  · rintro ⟨valid, fresh⟩
    exact ⟨_, insert_eq_ok_iff.2 ⟨valid, fresh, rfl⟩⟩

/-- An inserted spec is held beside those that were there. -/
theorem perm_values_insert {s : LibrarySpec} (inserted : l.insert s = .ok m) :
    m.specs.values.Perm (l.specs.values ++ [s]) := by
  obtain ⟨-, fresh, rfl⟩ := insert_eq_ok_iff.1 inserted
  have new : s.key ∉ l.specs.entries.map (·.1) := fun mem =>
    Bool.eq_false_iff.1 fresh (SortedMap.mem_keys_iff.1 mem)
  have entries := (SortedMap.perm_insertEntry (v := s) new).map (·.2)
  exact entries.trans (List.perm_append_singleton s l.specs.values).symm

/-! ### What a library finds -/

theorem nodup_map_key (l : Library) : (l.specs.values.map LibrarySpec.key).Nodup := by
  have keys : l.specs.values.map LibrarySpec.key = l.specs.entries.map (·.1) := by
    rw [SortedMap.values, List.map_map]
    exact List.map_congr_left fun e he => (l.keyed e he).symm
  exact keys ▸ l.specs.nodup_keys

/-- The identifiers are those of the predicates. -/
theorem mem_predicateIds_iff {id : String} :
    id ∈ l.predicateIds ↔ ∃ s ∈ l.specs.values, s.schemaId? = some id := by
  rw [predicateIds, SortedMap.mem_keys_iff, SortedMap.contains, Option.isSome_iff_exists]
  constructor
  · rintro ⟨key, noted⟩
    obtain ⟨s, held, named⟩ := l.named id key noted
    exact ⟨s, (get?_eq_some_iff.1 held).1, named⟩
  · rintro ⟨s, mem, named⟩
    exact exists_noted mem named

/-- Under an identifier the key of a predicate of that identifier is noted, and of no other one if
no digests collide. -/
theorem CollisionFree.byId_eq_some_iff (free : l.CollisionFree) {id : String} {key : SpecKey} :
    l.byId.get? id = some key ↔ ∃ s ∈ l.specs.values, s.schemaId? = some id ∧ s.key = key := by
  constructor
  · intro noted
    obtain ⟨s, held, named⟩ := l.named id key noted
    obtain ⟨mem, keyed⟩ := get?_eq_some_iff.1 held
    exact ⟨s, mem, named, keyed⟩
  · rintro ⟨s, mem, named, rfl⟩
    obtain ⟨key, noted⟩ := exists_noted mem named
    obtain ⟨t, found, named'⟩ := l.named id key noted
    obtain ⟨mem', rfl⟩ := get?_eq_some_iff.1 found
    rw [noted, free.eq_of_schemaId? mem mem' named named']

/-- A library holds some specs: just these, under keys that differ, and each of them can be declared.
What is found for an identifier is one of the predicates among them. When no digests collide, each
predicate is found for its identifier, so that the identifiers list the predicates. -/
structure Holds (l : Library) (accepted : List LibrarySpec) : Prop where
  specs : l.specs.values.Perm accepted
  distinct : (accepted.map LibrarySpec.key).Nodup
  declarable : ∀ s ∈ accepted, s.IsDeclarable
  get : ∀ key s, l.get? key = some s ↔ s ∈ accepted ∧ s.key = key
  inserts : ∀ s, (∃ m, l.insert s = .ok m) ↔ s.IsDeclarable ∧ s.key ∉ accepted.map LibrarySpec.key
  found : ∀ id s, l.predicate? id = some s →
    s ∈ accepted ∧ s.kind = .predicate ∧ s.schemaId? = some id
  predicate : l.CollisionFree → ∀ id s, l.predicate? id = some s ↔
    s ∈ accepted ∧ s.kind = .predicate ∧ s.schemaId? = some id
  ids_nodup : l.predicateIds.Nodup
  ids : l.CollisionFree → (l.predicateIds.map l.predicate?).Perm
    ((accepted.filter (·.kind = .predicate)).map some)

/-- A predicate is found for each identifier that is listed. -/
theorem CollisionFree.exists_predicate (free : l.CollisionFree) {id : String}
    (mem : id ∈ l.predicateIds) :
    ∃ s ∈ l.specs.values, s.schemaId? = some id ∧ l.predicate? id = some s := by
  obtain ⟨s, held, named⟩ := mem_predicateIds_iff.1 mem
  exact ⟨s, held, named, free.predicate?_eq_some_iff.2 ⟨held, named⟩⟩

/-- Predicates that are found for different identifiers differ, since a spec has one at most. -/
theorem CollisionFree.nodup_predicates (free : l.CollisionFree) :
    (l.predicateIds.map l.predicate?).Nodup := by
  refine List.Nodup.map_on (fun id mem id' mem' same => ?_) l.byId.nodup_keys
  obtain ⟨s, -, named, eq⟩ := free.exists_predicate mem
  obtain ⟨t, -, named', eq'⟩ := free.exists_predicate mem'
  cases eq.symm.trans (same.trans eq')
  exact Option.some.inj (named.symm.trans named')

/-- The predicates are listed once each by what is found for the identifiers. -/
theorem CollisionFree.perm_predicates (free : l.CollisionFree) :
    (l.predicateIds.map l.predicate?).Perm
      ((l.specs.values.filter (·.kind = .predicate)).map some) := by
  have once : ((l.specs.values.filter (·.kind = .predicate)).map some).Nodup :=
    (l.nodup_map_key.of_map.filter _).map (Option.some_injective _)
  refine (List.perm_ext_iff_of_nodup free.nodup_predicates once).2 fun o => ?_
  rw [List.mem_map, List.mem_map]
  constructor
  · rintro ⟨id, mem, rfl⟩
    obtain ⟨s, held, named, eq⟩ := free.exists_predicate mem
    have declares := LibrarySpec.kind_of_schemaId? named
    exact ⟨s, List.mem_filter.2 ⟨held, decide_eq_true declares⟩, eq.symm⟩
  · rintro ⟨s, mem, rfl⟩
    obtain ⟨held, declares⟩ := List.mem_filter.1 mem
    have named := LibrarySpec.schemaId?_eq_some_iff.2 ⟨of_decide_eq_true declares, rfl⟩
    exact ⟨_, mem_predicateIds_iff.2 ⟨s, held, named⟩,
      free.predicate?_eq_some_iff.2 ⟨held, named⟩⟩

/-- All follows from what a library is. -/
theorem holds_of_perm (perm : l.specs.values.Perm accepted) : l.Holds accepted where
  specs := perm
  distinct := l.nodup_map_key.perm (perm.map _)
  declarable s hs := by
    obtain ⟨e, held, rfl⟩ := List.mem_map.1 (perm.mem_iff.2 hs)
    exact LibrarySpec.check_eq_ok_iff.1 (l.checked e held)
  get key s := by rw [get?_eq_some_iff, perm.mem_iff]
  inserts s := by rw [exists_insert_iff, (perm.map _).mem_iff]
  found id s h := by
    obtain ⟨held, named⟩ := predicate?_sound h
    exact ⟨perm.mem_iff.1 held, LibrarySpec.kind_of_schemaId? named, named⟩
  predicate free id s := by
    rw [free.predicate?_eq_some_iff, perm.mem_iff]
    exact and_congr_right fun _ => (and_iff_right_of_imp LibrarySpec.kind_of_schemaId?).symm
  ids_nodup := l.byId.nodup_keys
  ids free := free.perm_predicates.trans ((perm.filter _).map _)

/-! ### Libraries of the same specs -/

section Same

variable (perm : l.specs.values.Perm m.specs.values)

include perm

theorem specs_eq_of_perm : l.specs = m.specs := by
  have entries (l : Library) : l.specs.values.map (fun s => (s.key, s)) = l.specs.entries := by
    rw [SortedMap.values, List.map_map]
    refine (List.map_congr_left fun e he => ?_).trans (List.map_id _)
    exact Prod.ext (l.keyed e he).symm rfl
  exact SortedMap.ext_perm (entries l ▸ entries m ▸ perm.map _)

theorem predicateIds_eq_of_perm : l.predicateIds = m.predicateIds := by
  have same : l.predicateIds.Perm m.predicateIds := by
    refine (List.perm_ext_iff_of_nodup l.byId.nodup_keys m.byId.nodup_keys).2 fun id => ?_
    refine mem_predicateIds_iff.trans (Iff.trans ?_ mem_predicateIds_iff.symm)
    exact exists_congr fun s => and_congr_left fun _ => perm.mem_iff
  have sorted (l : Library) : l.predicateIds.Pairwise fun a b => compare a b = .lt :=
    List.pairwise_map.2 l.byId.increasing
  exact SortedMap.eq_of_perm_of_increasing (sorted l) (sorted m) same

/-- Without collisions the identifiers leave nothing to choose. -/
theorem CollisionFree.eq_of_perm (free : l.CollisionFree) : l = m := by
  have specs := specs_eq_of_perm perm
  have free' : m.CollisionFree := fun s hs t ht =>
    free s (perm.mem_iff.2 hs) t (perm.mem_iff.2 ht)
  have byId : l.byId = m.byId := by
    refine SortedMap.ext_get? fun id => Option.ext fun key => ?_
    rw [free.byId_eq_some_iff, free'.byId_eq_some_iff]
    exact exists_congr fun s => and_congr_left fun _ => perm.mem_iff
  obtain ⟨_, _, _, _, _, _⟩ := l
  obtain ⟨_, _, _, _, _, _⟩ := m
  cases specs
  cases byId
  rfl

end Same

/-! ### Insertions in turn -/

/-- A library and the specs whose insertion succeeded, in turn. -/
structure Log where
  library : Library
  accepted : List LibrarySpec

namespace Log

variable {x : Log} {calls : List LibrarySpec}

/-- A spec is inserted. When this fails, nothing changes. -/
def insert (x : Log) (s : LibrarySpec) : Log :=
  match x.library.insert s with
  | .ok m => ⟨m, x.accepted ++ [s]⟩
  | .error _ => x

/-- Specs are inserted in turn into the library without specs. -/
def run (calls : List LibrarySpec) : Log := calls.foldl insert ⟨.empty, []⟩

theorem insert_of_ok {s : LibrarySpec} {m : Library} (inserted : x.library.insert s = .ok m) :
    x.insert s = ⟨m, x.accepted ++ [s]⟩ := by
  rw [insert, inserted]

theorem insert_of_error {s : LibrarySpec} {e : LibraryError}
    (failed : x.library.insert s = .error e) : x.insert s = x := by
  rw [insert, failed]

/-- An insertion leaves the library in step with what was accepted. -/
theorem perm_insert (perm : x.library.specs.values.Perm x.accepted) (s : LibrarySpec) :
    (x.insert s).library.specs.values.Perm (x.insert s).accepted := by
  cases outcome : x.library.insert s with
  | ok m =>
    rw [insert_of_ok outcome]
    exact (perm_values_insert outcome).trans (perm.append_right [s])
  | error e => rwa [insert_of_error outcome]

theorem perm_foldl (perm : x.library.specs.values.Perm x.accepted) :
    (calls.foldl insert x).library.specs.values.Perm (calls.foldl insert x).accepted := by
  induction calls generalizing x with
  | nil => exact perm
  | cons s rest ih => exact ih (perm_insert perm s)

theorem perm_run (calls : List LibrarySpec) :
    (run calls).library.specs.values.Perm (run calls).accepted := perm_foldl (.refl _)

/-- When the keys differ, what cannot be declared is all that fails, by induction on the specs that are
left: none of them has a key that is taken. -/
theorem accepted_foldl (perm : x.library.specs.values.Perm x.accepted)
    (distinct : ((x.accepted ++ calls).map LibrarySpec.key).Nodup) :
    (calls.foldl insert x).accepted = x.accepted ++ calls.filter (·.check = .ok ()) := by
  induction calls generalizing x with
  | nil => exact (List.append_nil _).symm
  | cons s rest ih =>
    -- its key is that of no call before, so it is not held
    have new : s.key ∉ x.library.specs.values.map LibrarySpec.key := by
      rw [(perm.map _).mem_iff]
      rw [List.map_append, List.map_cons] at distinct
      exact fun mem => (List.nodup_append.1 distinct).2.2 _ mem _ List.mem_cons_self rfl
    have later := perm_insert perm s
    rw [List.foldl_cons, List.filter_cons]
    cases outcome : x.library.insert s with
    | ok m =>
      have valid := LibrarySpec.check_eq_ok_iff.2 (exists_insert_iff.1 ⟨m, outcome⟩).1
      rw [insert_of_ok outcome] at later ⊢
      rw [List.append_cons] at distinct
      rw [ih later distinct, if_pos (decide_eq_true valid)]
      exact (List.append_cons ..).symm
    | error e =>
      have invalid : ¬ s.check = .ok () := fun valid => by
        obtain ⟨m, inserted⟩ := exists_insert_iff.2 ⟨LibrarySpec.check_eq_ok_iff.1 valid, new⟩
        cases outcome.symm.trans inserted
      have fewer := ((List.sublist_cons_self s rest).append_left x.accepted).map LibrarySpec.key
      rw [insert_of_error outcome, ih perm (distinct.sublist fewer),
        if_neg fun h => invalid (of_decide_eq_true h)]

/-- Insertions that all succeed are those of a library of a list. -/
theorem foldl_eq_of_foldlM {l m : Library} {accepted : List LibrarySpec}
    (h : calls.foldlM Library.insert l = .ok m) :
    calls.foldl insert ⟨l, accepted⟩ = ⟨m, accepted ++ calls⟩ := by
  induction calls generalizing l accepted with
  | nil =>
    cases h
    rw [List.foldl_nil, List.append_nil]
  | cons s rest ih =>
    rw [List.foldlM_cons] at h
    obtain ⟨next, inserted, h⟩ := bind_eq_ok.1 h
    have first : insert ⟨l, accepted⟩ s = ⟨next, accepted ++ [s]⟩ := insert_of_ok inserted
    rw [List.foldl_cons, first, ih h, ← List.append_cons]

/-- **A library holds just the specs whose insertion succeeded**, whatever is inserted into it and
however it was read. When all keys differ, the order of the insertions plays no part: only for
predicates whose digests collide could it decide which of them is found. -/
theorem holds_run :
    (∀ calls, (run calls).library.Holds (run calls).accepted) ∧
    (∀ text l, ofText text = .ok l → ∃ specs,
      Decode.ofText (Decode.list LibrarySpec.decode) text = .ok specs ∧ run specs = ⟨l, specs⟩ ∧
        l.Holds specs) ∧
    ∀ calls calls' : List LibrarySpec, calls.Perm calls' → (calls.map LibrarySpec.key).Nodup →
      (run calls).accepted.Perm (run calls').accepted ∧
      (run calls).library.specs = (run calls').library.specs ∧
      (run calls).library.predicateIds = (run calls').library.predicateIds ∧
      ((run calls).library.CollisionFree → (run calls).library = (run calls').library) := by
  refine ⟨fun calls => holds_of_perm (perm_run calls), ?_, ?_⟩
  · -- loading stops at an error, so a library that is loaded comes from a run without one
    intro text l h
    obtain ⟨specs, decoded, made⟩ := bind_eq_ok.1 h
    have ran : run specs = ⟨l, specs⟩ := foldl_eq_of_foldlM made
    have perm := perm_run specs
    rw [ran] at perm
    exact ⟨specs, mapError_eq_ok.1 decoded, ran, holds_of_perm perm⟩
  · intro calls calls' perm distinct
    have accepted {calls : List LibrarySpec} (distinct : (calls.map LibrarySpec.key).Nodup) :
        (run calls).accepted = calls.filter (·.check = .ok ()) :=
      accepted_foldl (x := ⟨.empty, []⟩) (.refl _) distinct
    have same : (run calls).accepted.Perm (run calls').accepted := by
      rw [accepted distinct, accepted (distinct.perm (perm.map _))]
      exact perm.filter _
    have held := (perm_run calls).trans (same.trans (perm_run calls').symm)
    exact ⟨same, specs_eq_of_perm held, predicateIds_eq_of_perm held, fun free => free.eq_of_perm held⟩

/-! ### Who is older and who is taller, inserted in turn -/

theorem insert_older : Library.empty.insert (.comparing "older") = .ok ages :=
  insert_eq_ok_iff.2 ⟨_, _, rfl⟩

/-- A name that is disallowed and a key that is taken are refused. -/
theorem run_comparing :
    run [.comparing "older", .comparing "count", .comparing "older", .comparing "taller"] =
      ⟨.sizes, [.comparing "older", .comparing "taller"]⟩ := by
  have disallowed : ages.insert (.comparing "count") = .error (.disallowedName "count") := rfl
  have taken : ages.insert (.comparing "older") =
    .error (.duplicateSpec (LibrarySpec.comparing "older").key) := rfl
  have first : insert ⟨.empty, []⟩ (.comparing "older") = ⟨ages, [.comparing "older"]⟩ :=
    insert_of_ok insert_older
  have second : insert ⟨ages, [.comparing "older"]⟩ (.comparing "count") =
    ⟨ages, [.comparing "older"]⟩ := insert_of_error disallowed
  have third : insert ⟨ages, [.comparing "older"]⟩ (.comparing "older") =
    ⟨ages, [.comparing "older"]⟩ := insert_of_error taken
  have last : insert ⟨ages, [.comparing "older"]⟩ (.comparing "taller") =
    ⟨sizes, [.comparing "older", .comparing "taller"]⟩ := insert_of_ok insert_taller
  simp only [run, List.foldl_cons, List.foldl_nil, first, second, third, last]

/-- A stored library that can say who is older. -/
def olderText : String :=
  "[\x7b\"name\": \"older\", \"arity\": 2, \"kind\": \"predicate\"\x7d]"

theorem ofText_olderText : ofText olderText = .ok ages := by
  have decoded : Decode.ofText (Decode.list LibrarySpec.decode) olderText =
      .ok [.comparing "older"] := by decide +kernel
  rw [ofText, decoded]
  have made : ofList [.comparing "older"] = .ok ages := bind_eq_ok.2 ⟨ages, insert_older, rfl⟩
  exact made

theorem holds_run_comparing :
    (run [.comparing "older", .comparing "count", .comparing "older", .comparing "taller"] =
        ⟨.sizes, [.comparing "older", .comparing "taller"]⟩ ∧
      sizes.CollisionFree ∧ sizes.Holds [.comparing "older", .comparing "taller"]) ∧
    (∃ specs, ofText olderText = .ok ages ∧ run specs = ⟨.ages, specs⟩ ∧ ages.Holds specs) ∧
    run [.comparing "older", .comparing "taller"] = ⟨.sizes, [.comparing "older", .comparing "taller"]⟩ ∧
      (run [.comparing "taller", .comparing "older"]).library = .sizes := by
  obtain ⟨holds, read, reordered⟩ := holds_run
  have kept := holds [.comparing "older", .comparing "count", .comparing "older", .comparing "taller"]
  rw [run_comparing] at kept
  obtain ⟨specs, -, ran, held⟩ := read _ _ ofText_olderText
  have both : run [.comparing "older", .comparing "taller"] =
      ⟨.sizes, [.comparing "older", .comparing "taller"]⟩ :=
    foldl_eq_of_foldlM (bind_eq_ok.2 ⟨_, insert_older, bind_eq_ok.2 ⟨_, insert_taller, rfl⟩⟩)
  obtain ⟨-, -, -, same⟩ := reordered [.comparing "older", .comparing "taller"]
    [.comparing "taller", .comparing "older"] (.swap ..) (by decide)
  rw [both] at same
  exact ⟨⟨run_comparing, collisionFree_sizes, kept⟩, ⟨specs, ofText_olderText, ran, held⟩, both,
    (same collisionFree_sizes).symm⟩

end Log

end Library

end Clausal
