import Clausal.Digest.Identifier
import Clausal.Schema.Error

/-!
# Libraries

A library declares predicates and operators that rules may use although no registry knows them.
A spec says how its name is written in the dialects that write it differently. Aggregates and cuts
cannot be declared. Specs are held under their keys; the keys of predicates are noted under the
identifiers of these, and `predicate?_sound` and `predicate?_eq_none` say what is found there.
-/

namespace Clausal

/-- What a spec declares. -/
inductive SpecKind
  | predicate
  | expr
deriving DecidableEq, Repr, Ord

namespace SpecKind

def text : SpecKind → String
  | .predicate => "predicate"
  | .expr => "expr"

def words : List (String × SpecKind) := [("predicate", .predicate), ("expr", .expr)]

instance : Std.TransOrd SpecKind where
  eq_swap {a b} := by cases a <;> cases b <;> rfl
  isLE_trans {a b c} := by cases a <;> cases b <;> cases c <;> decide

instance : Std.LawfulEqOrd SpecKind where
  eq_of_compare {a b} := by cases a <;> cases b <;> decide

end SpecKind

/-- What tells specs apart. -/
structure SpecKey where
  name : String
  arity : Nat
  kind : SpecKind
deriving DecidableEq

namespace SpecKey

instance : Ord SpecKey where
  compare := compareLex (compareOn name) (compareLex (compareOn arity) (compareOn kind))

instance : Std.TransOrd SpecKey :=
  inferInstanceAs
    (Std.TransCmp (compareLex (compareOn name) (compareLex (compareOn arity) (compareOn kind))))

instance : Std.LawfulEqOrd SpecKey where
  eq_of_compare {a b} h := by
    obtain ⟨names, h⟩ := compareLex_eq_eq.1 h
    obtain ⟨arities, kinds⟩ := compareLex_eq_eq.1 h
    have name : a.name = b.name := Std.LawfulEqCmp.eq_of_compare names
    have arity : a.arity = b.arity := Std.LawfulEqCmp.eq_of_compare arities
    have kind : a.kind = b.kind := Std.LawfulEqCmp.eq_of_compare kinds
    rw [SpecKey.mk.injEq]
    exact ⟨name, arity, kind⟩

end SpecKey

inductive LibraryError
  | emptyName (name : String)
  | signatureLength (name : String) (found arity : Nat)
  | malformed (why : Json.TextError)
  | disallowedName (name : String)
  | duplicateSpec (key : SpecKey)
  | missingSpec (key : SpecKey)
  | duplicateHandler (key : SpecKey) (dialect : String)
deriving DecidableEq

namespace LibraryError

def message : LibraryError → String
  | emptyName name => s!"library spec `{name}`: name must be non-empty"
  | signatureLength name found arity =>
    s!"library spec `{name}`: signature has {Text.decimal found} entries " ++
      s!"but arity is {Text.decimal arity}"
  | malformed why => s!"library spec `<library>`: {why.message}"
  | disallowedName name => s!"`{name}` is an aggregate or cut operator and cannot be registered"
  | duplicateSpec key =>
    s!"library spec {key.name}/{Text.decimal key.arity} ({key.kind.text}) is already registered"
  | missingSpec key =>
    s!"no library spec {key.name}/{Text.decimal key.arity} ({key.kind.text}) to attach a handler to"
  | duplicateHandler key dialect =>
    s!"handler for {key.name}/{Text.decimal key.arity} ({key.kind.text}) on `{dialect}` " ++
      "is already registered"

end LibraryError

/-- The operators that cannot be declared or used. -/
def disallowedOps : List String :=
  ["count", "sum", "min", "max", "avg", "mean", "aggregate", "aggregate_all", "findall", "bagof",
   "setof", "!", "cut"]

/-- Whether a name is that of an aggregate or cut, without regard to blanks around it and case. -/
def isDisallowed (op : String) : Bool := disallowedOps.contains (Text.lower (Text.trim op))

/-- A declaration of a predicate or operator. -/
structure LibrarySpec where
  name : String
  arity : Nat
  kind : SpecKind
  description : String
  /-- The datatypes of the arguments. -/
  signature : Option (List String)
  typing : Option String
  /-- How the name is written, by dialect: another name for a predicate, a template for an
  operator. -/
  mapping : SortedMap String String
deriving DecidableEq

namespace LibrarySpec

/-- What tells the spec from others. -/
def key (s : LibrarySpec) : SpecKey := ⟨s.name, s.arity, s.kind⟩

/-- Fails when a spec cannot be declared. -/
def check (s : LibrarySpec) : Except LibraryError Unit :=
  if Text.trim s.name = "" then .error (.emptyName s.name)
  else if isDisallowed s.name then .error (.disallowedName s.name)
  else match s.signature with
    | some datatypes =>
      if datatypes.length = s.arity then .ok ()
      else .error (.signatureLength s.name datatypes.length s.arity)
    | none => .ok ()

/-- What the identifier of a predicate spec depends on. -/
def identity (s : LibrarySpec) : Json :=
  .obj [("kind", .str s.kind.text), ("name", .str s.name), ("arity", .ofNat s.arity),
    ("signature", s.signature.elim .null .ofStrings)]

/-- The identifier by which references name a predicate spec. -/
def schemaId? (s : LibrarySpec) : Option String :=
  match s.kind with
  | .predicate => some (Identifier.ofJson s.identity)
  | .expr => none

/-- The keys of predicates by identifier, with that of a spec noted if it is one. Of two predicates
with one identifier the later one counts. -/
def note (s : LibrarySpec) (byId : SortedMap String SpecKey) : SortedMap String SpecKey :=
  match s.schemaId? with
  | some id => byId.insert id s.key
  | none => byId

theorem get?_note (s : LibrarySpec) (byId : SortedMap String SpecKey) (id : String) :
    (s.note byId).get? id = if s.schemaId? = some id then some s.key else byId.get? id := by
  unfold note
  split
  case h_1 own named =>
    simp only [named, SortedMap.get?_insert, Std.LawfulEqCmp.compare_eq_iff_eq, Option.some.injEq,
      eq_comm (b := id)]
  case h_2 unnamed => rw [unnamed, if_neg nofun]

def decode : Decoder LibrarySpec := fun r d => do
  let m ← Decode.record "LibrarySpec"
    (["name", "arity", "kind", "description", "signature", "typing",
      "backend_mapping"].map Decode.field) true r d
  return {
    name := ← m.required "name" Decode.text
    arity := ← m.required "arity" Decode.count
    kind := ← m.required "kind" (Decode.word SpecKind.words)
    description := ← m.withDefault "description" "" Decode.text
    signature := ← m.optional "signature" (Decode.list Decode.text)
    typing := ← m.optional "typing" Decode.text
    mapping := ← m.withDefault "backend_mapping" .empty (Decode.map Decode.text) }

def toJson (s : LibrarySpec) : Json :=
  .obj ([("name", .str s.name), ("arity", .ofNat s.arity), ("kind", .str s.kind.text),
      ("description", .str s.description)] ++
    Json.member? "signature" (s.signature.map .ofStrings) ++
    Json.member? "typing" (s.typing.map .str) ++
    Json.member? "backend_mapping"
      (if s.mapping.entries = [] then none else some (.obj (s.mapping.mapValues .str).entries)))

end LibrarySpec

/-- A set of specs that can be declared, each under its key, and the keys of the predicates among them
by identifier. -/
structure Library where
  specs : SortedMap SpecKey LibrarySpec
  byId : SortedMap String SpecKey
  keyed : ∀ e ∈ specs.entries, e.1 = e.2.key
  checked : ∀ e ∈ specs.entries, e.2.check = .ok ()
  named : ∀ id key, byId.get? id = some key →
    ∃ s, specs.get? key = some s ∧ s.schemaId? = some id
  noted : ∀ e ∈ specs.entries, ∀ id, e.2.schemaId? = some id → byId.get? id ≠ none

namespace Library

def empty : Library where
  specs := .empty
  byId := .empty
  keyed := nofun
  checked := nofun
  named := nofun
  noted := nofun

def get? (l : Library) (key : SpecKey) : Option LibrarySpec := l.specs.get? key

theorem named_insert {l : Library} {s : LibrarySpec} (fresh : l.specs.contains s.key = false)
    (id : String) (key : SpecKey) (found : (s.note l.byId).get? id = some key) :
    ∃ t, (l.specs.insert s.key s).get? key = some t ∧ t.schemaId? = some id := by
  simp only [SortedMap.get?_insert, Std.LawfulEqCmp.compare_eq_iff_eq]
  rw [LibrarySpec.get?_note] at found
  split at found
  case isTrue own =>
    cases found
    exact ⟨s, if_pos rfl, own⟩
  case isFalse =>
    obtain ⟨t, held, named⟩ := l.named id key found
    exact ⟨t, by rw [if_neg (SortedMap.ne_of_fresh held fresh), held], named⟩

theorem noted_insert {l : Library} {s : LibrarySpec} {e : SpecKey × LibrarySpec}
    (mem : e ∈ (l.specs.insert s.key s).entries) (id : String) (named : e.2.schemaId? = some id) :
    (s.note l.byId).get? id ≠ none := by
  rw [LibrarySpec.get?_note]
  rcases SortedMap.mem_insert mem with rfl | old
  · rw [if_pos named]
    nofun
  · split
    · nofun
    · exact l.noted e old id named

/-- The library with one more spec, which can be declared and has a key of its own. -/
def add (l : Library) (s : LibrarySpec) (valid : s.check = .ok ())
    (fresh : l.specs.contains s.key = false) : Library where
  specs := l.specs.insert s.key s
  byId := s.note l.byId
  keyed e h := (SortedMap.mem_insert h).elim (fun eq => by rw [eq]) (l.keyed e)
  checked e h := (SortedMap.mem_insert h).elim (fun eq => by rw [eq, valid]) (l.checked e)
  named := named_insert fresh
  noted _ := noted_insert

/-- The library with one more spec, unless this cannot be declared or its key is taken. -/
def insert (l : Library) (s : LibrarySpec) : Except LibraryError Library :=
  match valid : s.check with
  | .error e => .error e
  | .ok () =>
    if taken : l.specs.contains s.key then .error (.duplicateSpec s.key)
    else .ok (l.add s valid (Bool.eq_false_iff.2 taken))

theorem insert_eq_ok_iff {l m : Library} {s : LibrarySpec} :
    l.insert s = .ok m ↔ ∃ valid fresh, m = l.add s valid fresh := by
  unfold insert
  split
  case h_1 e invalid => exact iff_of_false nofun fun ⟨valid, _⟩ => nomatch invalid.symm.trans valid
  case h_2 valid =>
    split
    case isTrue taken => exact iff_of_false nofun fun ⟨_, fresh, _⟩ => nomatch taken.symm.trans fresh
    case isFalse free =>
      rw [Except.ok.injEq]
      exact ⟨fun h => ⟨valid, Bool.eq_false_iff.2 free, h.symm⟩, fun ⟨_, _, h⟩ => h.symm⟩

/-- The library of specs, which are inserted in turn. -/
def ofList (specs : List LibrarySpec) : Except LibraryError Library := specs.foldlM insert empty

def ofText (text : String) : Except LibraryError Library := do
  ofList (← (Decode.ofText (Decode.list LibrarySpec.decode) text).mapError .malformed)

/-- How a dialect writes the name of a key. -/
def mapping? (l : Library) (key : SpecKey) (dialect : String) : Option String :=
  (l.get? key).bind fun s => s.mapping.get? dialect

/-- The predicate spec of an identifier. -/
def predicate? (l : Library) (schemaId : String) : Option LibrarySpec :=
  (l.byId.get? schemaId).bind l.get?

/-- Something is noted under the identifier of each predicate. -/
theorem exists_noted {l : Library} {s : LibrarySpec} {id : String} (mem : s ∈ l.specs.values)
    (named : s.schemaId? = some id) : ∃ key, l.byId.get? id = some key := by
  obtain ⟨e, held, rfl⟩ := List.mem_map.1 mem
  exact Option.ne_none_iff_exists'.1 (l.noted e held id named)

/-- What is found for an identifier is a predicate that has it. -/
theorem predicate?_sound {l : Library} {id : String} {s : LibrarySpec}
    (h : l.predicate? id = some s) : s ∈ l.specs.values ∧ s.schemaId? = some id := by
  obtain ⟨key, noted, found⟩ := Option.bind_eq_some_iff.1 h
  obtain ⟨t, held, named⟩ := l.named id key noted
  cases found.symm.trans held
  exact ⟨SortedMap.mem_values_of_get? found, named⟩

/-- Nothing is found for an identifier exactly when no spec has it. -/
theorem predicate?_eq_none {l : Library} {id : String} :
    l.predicate? id = none ↔ ∀ s ∈ l.specs.values, s.schemaId? ≠ some id := by
  constructor
  · intro h s mem own
    obtain ⟨key, noted⟩ := exists_noted mem own
    obtain ⟨t, held, -⟩ := l.named id key noted
    rw [predicate?, noted, Option.bind_some, get?, held] at h
    cases h
  · intro h
    refine Option.eq_none_iff_forall_not_mem.2 fun s found => ?_
    obtain ⟨mem, named⟩ := predicate?_sound found
    exact h s mem named

/-- What is added is found for its identifier, and nothing else is lost. -/
theorem predicate?_add {l : Library} {s : LibrarySpec} (valid : s.check = .ok ())
    (fresh : l.specs.contains s.key = false) (id : String) :
    (l.add s valid fresh).predicate? id =
      if s.schemaId? = some id then some s else l.predicate? id := by
  have noted : (l.add s valid fresh).byId.get? id =
      if s.schemaId? = some id then some s.key else l.byId.get? id := s.get?_note l.byId id
  have held (key : SpecKey) : (l.add s valid fresh).get? key =
      if key = s.key then some s else l.get? key := by
    simp only [get?, add, SortedMap.get?_insert, Std.LawfulEqCmp.compare_eq_iff_eq]
  rw [predicate?, noted]
  split
  case isTrue => rw [Option.bind_some, held, if_pos rfl]
  case isFalse =>
    cases found : l.byId.get? id with
    | none => rw [predicate?, found, Option.bind_none, Option.bind_none]
    | some key =>
      obtain ⟨t, old, -⟩ := l.named id key found
      rw [predicate?, found, Option.bind_some, Option.bind_some, held,
        if_neg (SortedMap.ne_of_fresh old fresh)]

def predicateIds (l : Library) : List String := l.byId.keys

/-- The names of the operator specs, in the order of their keys. -/
def exprOps (l : Library) : List String :=
  (l.specs.values.filter (·.kind == .expr)).map (·.name)

def size (l : Library) : Nat := l.specs.size

end Library

end Clausal
