import Clausal.Render.Dialect
import Clausal.Validation.Basic

/-!
# Compiling

Compiling validates every rule before anything is written.
-/

namespace Clausal

inductive PipelineError
  | validation (why : ValidationError)
  | render (why : RenderError)
deriving DecidableEq

def PipelineError.message : PipelineError → String
  | validation why => "validation failed: " ++ why.message
  | render why => "rendering failed: " ++ why.message

namespace Dialect

/-- A rule, once it is found to be valid for a view. -/
def compile (d : Dialect) (r : Rule) (view : View) (context : RenderContext) :
    Except PipelineError String := do
  (Validator.validate ⟨view, context.library⟩ r).mapError .validation
  (d.renderRule context r).mapError .render

/-- A program, once its rules are found to be valid for a view. -/
def compileProgram (d : Dialect) (records : List Record) (rules : List Rule) (queries : List Query)
    (view : View) (context : RenderContext) : Except PipelineError String := do
  rules.forM fun r => (Validator.validate ⟨view, context.library⟩ r).mapError .validation
  (d.renderProgram context records rules queries).mapError .render

end Dialect

end Clausal
