import Clausal.Render.Naming
import Clausal.Render.Probability

/-!
# Configuration of rendering
-/

namespace Clausal

/-- How rules are written. -/
structure RenderConfig where
  naming : NamingMode
  varPrefix : String
  binding : Binding
  probability : ProbabilityConfig
  /-- Whether a comment stands above each clause with a probability. -/
  comments : Bool
deriving DecidableEq

namespace RenderConfig

def default : RenderConfig := ⟨.sanitize, "V_", .auto, .default, true⟩

def namer (c : RenderConfig) : Namer := ⟨c.naming, c.varPrefix⟩

/-- The configuration with the wishes of a rule in place of its own. -/
def merged (c : RenderConfig) (o : Overrides) : RenderConfig where
  naming := o.naming.getD c.naming
  varPrefix := o.varPrefix.getD c.varPrefix
  binding := o.binding.getD c.binding
  probability := c.probability
  comments := c.comments

def decode : Decoder RenderConfig := fun r d => do
  let m ← Decode.record "RenderConfig"
    (["var_mode", "var_prefix", "rel_binding", "probability", "comments"].map Decode.field) true r d
  return {
    naming := ← m.withDefault "var_mode" default.naming (Decode.word NamingMode.words)
    varPrefix := ← m.withDefault "var_prefix" default.varPrefix Decode.text
    binding := ← m.withDefault "rel_binding" default.binding (Decode.word Binding.words)
    probability := ← m.withDefault "probability" .default ProbabilityConfig.decode
    comments := ← m.withDefault "comments" default.comments Decode.bool }

def toJson (c : RenderConfig) : Json :=
  .obj [("var_mode", .str c.naming.text), ("var_prefix", .str c.varPrefix),
    ("rel_binding", .str c.binding.text), ("probability", c.probability.toJson),
    ("comments", .bool c.comments)]

/-- The configuration of a JSON text, whose defaults have to be probabilities. -/
def ofText (text : String) : Except RenderError RenderConfig := do
  let c ← (Decode.ofText decode text).mapError .invalidConfig
  c.probability.check
  return c

end RenderConfig

end Clausal
