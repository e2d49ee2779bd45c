import Clausal.Library.Template
import Clausal.Rule.Basic

/-!
# Errors of rendering
-/

namespace Clausal

inductive RenderError
  | unsupportedDialect (dialect : String)
  | unknownDialect (dialect : String)
  | duplicateDialect (dialect : String)
  | unknownPredicate (schemaId : String)
  | invalidVariable (name : String) (mode : NamingMode)
  | variableCollision (first second rendered : String) (mode : NamingMode)
  | reservedHeadVariable (predicate prop rendered : String)
  | nonFiniteConstant (value : Binary64)
  | negatedRefInExpr (schemaId : String)
  | unboundEndpoint (relation : String) (condition : Nat) (side : Side) (missing : List String)
  | relationShape (relation : String) (expected found : Nat)
  | badMapping (op template : String) (why : TemplateFault)
  | missingProbability (context : String)
  | probabilityOutOfRange (context : String) (value : Binary64)
  | invalidConfig (why : Json.TextError)
  | schema (why : SchemaError)
deriving DecidableEq

def RenderError.message : RenderError → String
  | unsupportedDialect dialect => s!"dialect `{dialect}` is declared but has no renderer"
  | unknownDialect dialect => s!"unknown dialect `{dialect}`"
  | duplicateDialect dialect => s!"renderer for dialect `{dialect}` is already registered"
  | unknownPredicate schemaId =>
    s!"predicate {schemaId} is neither in the schema source nor a library predicate"
  | invalidVariable name mode =>
    s!"variable `{name}` is not a valid identifier under var_mode `{mode.text}`"
  | variableCollision first second rendered mode =>
    s!"variables `{first}` and `{second}` both render as `{rendered}` under var_mode `{mode.text}`"
  | reservedHeadVariable predicate prop rendered =>
    s!"relation rule `{predicate}`: prop `{prop}` renders as reserved head variable `{rendered}`"
  | nonFiniteConstant value => s!"float constant {value.text .plain} has no finite rendering"
  | negatedRefInExpr schemaId =>
    s!"negated reference to `{schemaId}` cannot be rendered inside an expression"
  | unboundEndpoint relation condition side missing =>
    s!"relation rule `{relation}` condition {Text.decimal condition}: " ++
      s!"{side.text} is not bound (missing {Text.quoteList missing})"
  | relationShape relation expected found =>
    s!"relation `{relation}`: expected {Text.decimal expected} terms, got {Text.decimal found}"
  | badMapping op template why => s!"library mapping `{template}` for `{op}`: {why.message}"
  | missingProbability context => s!"missing probability for {context}"
  | probabilityOutOfRange context value =>
    s!"{context}: probability {value.text .plain} is outside [0.0, 1.0]"
  | invalidConfig why => s!"invalid render config: {why.message}"
  | schema why => why.message

end Clausal
