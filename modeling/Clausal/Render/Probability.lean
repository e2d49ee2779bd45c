import Clausal.Render.Error

/-!
# Probabilities of facts and clauses

What is written for a fact or clause that declares no probability.
-/

namespace Clausal

/-- What happens where a probability is missing. -/
inductive MissingPolicy
  | injectDefault
  | warnAndDefault
  | error
deriving DecidableEq, Repr

namespace MissingPolicy

def text : MissingPolicy → String
  | .injectDefault => "inject_default"
  | .warnAndDefault => "warn_and_default"
  | .error => "error"

def words : List (String × MissingPolicy) :=
  [("inject_default", .injectDefault), ("warn_and_default", .warnAndDefault), ("error", .error)]

end MissingPolicy

/-- Where a written probability comes from. -/
inductive ProbabilityOrigin
  | declared
  | default
deriving DecidableEq, Repr

def ProbabilityOrigin.text : ProbabilityOrigin → String
  | .declared => "declared"
  | .default => "default"

/-- The probabilities that stand in for missing ones. -/
structure ProbabilityConfig where
  defaultFact : Binary64
  defaultRule : Binary64
  missing : MissingPolicy
deriving DecidableEq

namespace ProbabilityConfig

/-- Whatever declares no probability is certain. -/
def default : ProbabilityConfig := ⟨.one, .one, .injectDefault⟩

/-- Fails when a number is no probability. -/
def checkRange (context : String) (value : Binary64) : Except RenderError Unit :=
  if value.inUnitInterval then .ok () else .error (.probabilityOutOfRange context value)

/-- Fails when a default is no probability. -/
def check (c : ProbabilityConfig) : Except RenderError Unit := do
  checkRange "default_fact_prob" c.defaultFact
  checkRange "default_rule_prob" c.defaultRule

/-- The probability to write, and where it comes from. -/
def resolve (c : ProbabilityConfig) (default : Binary64) (prob : Option Binary64)
    (context : String) : Except RenderError (Binary64 × ProbabilityOrigin) :=
  match prob with
  | some p => do
    checkRange context p
    return (p, .declared)
  | none =>
    match c.missing with
    | .injectDefault | .warnAndDefault => .ok (default, .default)
    | .error => .error (.missingProbability context)

/-- The probability to write for a clause. -/
def resolveRule (c : ProbabilityConfig) (prob : Option Binary64) (context : String) :
    Except RenderError (Binary64 × ProbabilityOrigin) :=
  c.resolve c.defaultRule prob context

/-- The probability to write for a fact. -/
def resolveFact (c : ProbabilityConfig) (prob : Option Binary64) (context : String) :
    Except RenderError (Binary64 × ProbabilityOrigin) :=
  c.resolve c.defaultFact prob context

def decode : Decoder ProbabilityConfig := fun r d => do
  let m ← Decode.record "ProbabilityConfig"
    (["default_fact_prob", "default_rule_prob", "missing_prob_policy"].map Decode.field) true r d
  return {
    defaultFact := ← m.withDefault "default_fact_prob" .one Decode.float
    defaultRule := ← m.withDefault "default_rule_prob" .one Decode.float
    missing := ← m.withDefault "missing_prob_policy" .injectDefault
      (Decode.word MissingPolicy.words) }

def toJson (c : ProbabilityConfig) : Json :=
  .obj [("default_fact_prob", .ofFloat c.defaultFact),
    ("default_rule_prob", .ofFloat c.defaultRule),
    ("missing_prob_policy", .str c.missing.text)]

end ProbabilityConfig

end Clausal
