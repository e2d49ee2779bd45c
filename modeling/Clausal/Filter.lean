import Clausal.Schema.Basic

/-!
# Filters

A filter is a condition on schemas, put together from matches on single fields by the connectives.
-/

namespace Clausal

/-- Wanted values of some fields of a schema. Datatype, role and namespace are wanted of every
argument; what is not given admits everything. -/
structure SchemaMatch where
  name : Option String
  arity : Option Nat
  datatype : Option String
  role : Option Role
  space : Option String
  kind : Option Kind
deriving DecidableEq

/-- A condition on schemas. -/
inductive Filter
  | matching (m : SchemaMatch)
  | all (filters : List Filter)
  | any (filters : List Filter)
  | not (filter : Filter)

namespace SchemaMatch

/-- Whether a schema has the wanted values. -/
def admits (m : SchemaMatch) (s : Schema) : Bool :=
  m.name.all (· == s.name) && m.arity.all (· == s.arity) && m.kind.all (· == s.kind) &&
  m.datatype.all (fun d => s.signature.args.all fun a => Datatype.agree a.datatype d) &&
  m.role.all (fun r => s.signature.args.all fun a => a.role == some r) &&
  m.space.all (fun n => s.signature.args.all fun a => a.space == some n)

/-- A match of a document. -/
def decode : Decoder SchemaMatch := fun r d => do
  let m ← Decode.record "PredMatch"
    (["name", "arity", "datatype", "role", "namespace", "kind"].map Decode.field) true r d
  return {
    name := ← m.optional "name" Decode.text
    arity := ← m.optional "arity" Decode.count
    datatype := ← m.optional "datatype" Decode.text
    role := ← m.optional "role" (Decode.word Role.words)
    space := ← m.optional "namespace" Decode.text
    kind := ← m.optional "kind" (Decode.word Kind.words) }

def toJson (m : SchemaMatch) : Json :=
  .obj (Json.member? "name" (m.name.map .str) ++
    Json.member? "arity" (m.arity.map .ofNat) ++
    Json.member? "datatype" (m.datatype.map .str) ++
    Json.member? "role" (m.role.map fun r => .str r.text) ++
    Json.member? "namespace" (m.space.map .str) ++
    Json.member? "kind" (m.kind.map fun k => .str k.text))

end SchemaMatch

namespace Filter

mutual

/-- Whether a schema meets a condition. -/
def admits (s : Schema) : Filter → Bool
  | .matching m => m.admits s
  | .all filters => allAdmit s filters
  | .any filters => anyAdmits s filters
  | .not filter => !admits s filter

def allAdmit (s : Schema) : List Filter → Bool
  | [] => true
  | f :: rest => admits s f && allAdmit s rest

def anyAdmits (s : Schema) : List Filter → Bool
  | [] => false
  | f :: rest => admits s f || anyAdmits s rest

end

def and : Filter → Filter → Filter
  | .all filters, g => .all (filters ++ [g])
  | f, g => .all [f, g]

def or : Filter → Filter → Filter
  | .any filters, g => .any (filters ++ [g])
  | f, g => .any [f, g]

/-- A filter of a document whose nesting is less than `fuel`. -/
def decodeWithin : Nat → Decoder Filter
  | 0 => fun _ d => .error (d.mismatch "a filter")
  | fuel + 1 => fun r d => do
    let (name, body) ← Decode.variant ["match", "and", "or", "not"] r d
    if name = "match" then return .matching (← SchemaMatch.decode r body)
    else if name = "and" then return .all (← Decode.list (decodeWithin fuel) r body)
    else if name = "or" then return .any (← Decode.list (decodeWithin fuel) r body)
    else return .not (← decodeWithin fuel r body)

/-- A filter of a document: each connective nests it one object deeper. -/
def decode : Decoder Filter := fun r d => decodeWithin (d.height + 1) r d

mutual

def toJson : Filter → Json
  | .matching m => .obj [("match", m.toJson)]
  | .all filters => .obj [("and", .arr (listToJson filters))]
  | .any filters => .obj [("or", .arr (listToJson filters))]
  | .not filter => .obj [("not", toJson filter)]

def listToJson : List Filter → List Json
  | [] => []
  | f :: rest => toJson f :: listToJson rest

end

end Filter

end Clausal
