import Clausal.Registry.Basic
import Clausal.Rule.Basic
import Clausal.Rule.Expression
import Clausal.Schema.Payload

/-!
# Stored rules

A rule is stored as its head with the conditions and the overrides among the members. Since the head
is told apart by a tag, everything that is not a condition or an override belongs to it.
-/

namespace Clausal

namespace Overrides

def decode : Decoder Overrides := fun r d => do
  let m ← Decode.record "RuleRenderConfig"
    (["var_mode", "var_prefix", "rel_binding"].map Decode.field) true r d
  return {
    naming := ← m.optional "var_mode" (Decode.word NamingMode.words)
    varPrefix := ← m.optional "var_prefix" Decode.text
    binding := ← m.optional "rel_binding" (Decode.word Binding.words) }

def toJson (o : Overrides) : Json :=
  .obj (Json.member? "var_mode" (o.naming.map fun n => .str n.text) ++
    Json.member? "var_prefix" (o.varPrefix.map .str) ++
    Json.member? "rel_binding" (o.binding.map fun b => .str b.text))

end Overrides

namespace Literal

def decode : Decoder Literal := fun r d => do
  let (kind, body) ← Decode.tagged "kind" ["ref", "expr"] r d
  if kind = "ref" then return .ref (← Ref.decode .heldBack body)
  else
    let m ← Decode.record "Expr" [Decode.field "expr"] false .heldBack body
    return .expr (← m.required "expr" Expr.decode)

def toJson : Literal → Json
  | .ref r => .obj (("kind", .str "ref") :: r.members)
  | .expr e => .obj [("kind", .str "expr"), ("expr", e.toJson)]

end Literal

namespace Condition

def decode : Decoder Condition := fun r d => do
  let m ← Decode.record "Cond" (["literals", "prob"].map Decode.field) false r d
  return ⟨← m.required "literals" (Decode.list Literal.decode), ← m.optional "prob" Decode.float⟩

def toJson (c : Condition) : Json :=
  .obj [("literals", .arr (c.literals.map Literal.toJson)), ("prob", c.prob.elim .null .ofFloat)]

end Condition

/-- A rule as it is stored. -/
structure RulePayload where
  head : SchemaPayload
  conditions : List Condition
  overrides : Overrides

namespace RulePayload

/-- The members that are not part of the head. -/
def ownFields : List Decode.Field := ["conditions", "render_configs"].map Decode.field

def decode : Decoder RulePayload := fun r d => do
  match d with
  | .obj members =>
    let own ← Decode.declaredMembers ownFields false members
    let head := members.filter fun m => (Decode.declaredName? ownFields m.1).isNone
    let m : Decode.Members := ⟨r, own⟩
    return {
      head := ← SchemaPayload.decode .heldBack (.obj head)
      conditions := ← m.withDefault "conditions" [] (Decode.list Condition.decode)
      overrides := ← m.withDefault "render_configs" .none Overrides.decode }
  | d => throw (d.mismatch "struct RulePayload")

def toJson (p : RulePayload) : Json :=
  .obj (p.head.members ++ [("conditions", .arr (p.conditions.map Condition.toJson))] ++
    Json.member? "render_configs"
      (if p.overrides = .none then none else some p.overrides.toJson))

end RulePayload

namespace Rule

def toPayload (r : Rule) : RulePayload := ⟨r.head.toPayload, r.conditions, r.overrides⟩

/-- The rule of a payload. The endpoints of a relation head are looked up in a source. -/
def ofPayload (p : RulePayload) (source : Source) : Except SchemaError Rule := do
  let head ← Schema.ofPayload p.head fun id => (source id).toOption
  p.conditions.forM Condition.checkProbability
  return ⟨head, p.conditions, p.overrides⟩

def ofText (text : String) (source : Source) : Except SchemaError Rule := do
  ofPayload (← (Decode.ofText RulePayload.decode text).mapError .malformed) source

end Rule

end Clausal
