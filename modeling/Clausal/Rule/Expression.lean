import Clausal.Expr

/-!
# Stored expressions

Terms and expressions are stored as objects with the tag `kind`.
-/

namespace Clausal

namespace Var

def decode : Decoder Var := fun r d => do
  let m ← Decode.record "Var" (["name", "datatype"].map Decode.field) false r d
  return ⟨← m.required "name" Decode.text, ← m.optional "datatype" Decode.text⟩

def members (v : Var) : List (String × Json) :=
  [("kind", .str "var"), ("name", .str v.name)] ++ Json.member? "datatype" (v.datatype.map .str)

end Var

namespace Const

def decode : Decoder Const := fun r d => do
  let m ← Decode.record "Const" (["value", "datatype"].map Decode.field) false r d
  return ⟨← m.required "value" Value.decode, ← m.optional "datatype" Decode.text⟩

def members (c : Const) : List (String × Json) :=
  [("kind", .str "const"), ("value", c.value.toJson)] ++
    Json.member? "datatype" (c.datatype.map .str)

end Const

namespace Term

def decode : Decoder Term := fun r d => do
  let (kind, body) ← Decode.tagged "kind" ["var", "const"] r d
  if kind = "var" then return .var (← Var.decode .heldBack body)
  else return .const (← Const.decode .heldBack body)

def toJson : Term → Json
  | .var v => .obj v.members
  | .const c => .obj c.members

end Term

namespace Ref

def fields : List Decode.Field :=
  [⟨"predicate_id", some "schema_id"⟩, Decode.field "terms", Decode.field "negated"]

def decode : Decoder Ref := fun r d => do
  let m ← Decode.record "Ref" fields false r d
  return {
    schemaId := ← m.required "predicate_id" Decode.text
    terms := ← m.withDefault "terms" [] (Decode.list Term.decode)
    negated := ← m.withDefault "negated" false Decode.bool }

def members (r : Ref) : List (String × Json) :=
  [("predicate_id", .str r.schemaId), ("terms", .arr (r.terms.map Term.toJson)),
    ("negated", .bool r.negated)]

def toJson (r : Ref) : Json := .obj r.members

end Ref

namespace Expr

def tags : List String := ["var", "const", "call", "unify", "if", "not", "ref"]

/-- A stored expression of a document whose nesting is less than `fuel`. -/
def decodeWithin : Nat → Decoder Expr
  | 0 => fun _ d => .error (d.mismatch "an expression")
  | fuel + 1 => fun r d => do
    let (kind, body) ← Decode.tagged "kind" tags r d
    let part := decodeWithin fuel
    if kind = "var" then return .var (← Var.decode .heldBack body)
    else if kind = "const" then return .const (← Const.decode .heldBack body)
    else if kind = "ref" then return .ref (← Ref.decode .heldBack body)
    else if kind = "call" then
      let m ← Decode.record "Call" (["op", "args"].map Decode.field) false .heldBack body
      return .call (← m.required "op" Decode.text) (← m.withDefault "args" [] (Decode.list part))
    else if kind = "unify" then
      let m ← Decode.record "Unify" (["lhs", "rhs"].map Decode.field) false .heldBack body
      return .unify (← m.required "lhs" part) (← m.required "rhs" part)
    else if kind = "if" then
      let m ← Decode.record "If" (["cond", "then", "else"].map Decode.field) false .heldBack body
      return .choice (← m.required "cond" part) (← m.required "then" part)
        (← m.required "else" part)
    else
      let m ← Decode.record "Not" (["expr"].map Decode.field) false .heldBack body
      return .not (← m.required "expr" part)

/-- A stored expression of a document: each operator nests it at least one object deeper. -/
def decode : Decoder Expr := fun r d => decodeWithin (d.height + 1) r d

mutual

def toJson : Expr → Json
  | .var v => .obj v.members
  | .const c => .obj c.members
  | .call op args => .obj [("kind", .str "call"), ("op", .str op), ("args", .arr (listToJson args))]
  | .unify lhs rhs => .obj [("kind", .str "unify"), ("lhs", toJson lhs), ("rhs", toJson rhs)]
  | .choice condition yes no =>
    .obj [("kind", .str "if"), ("cond", toJson condition), ("then", toJson yes),
      ("else", toJson no)]
  | .not e => .obj [("kind", .str "not"), ("expr", toJson e)]
  | .ref r => .obj (("kind", .str "ref") :: r.members)

def listToJson : List Expr → List Json
  | [] => []
  | e :: rest => toJson e :: listToJson rest

end

end Expr

end Clausal
