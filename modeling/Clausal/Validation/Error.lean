import Clausal.Number.Style

/-!
# Errors of validation
-/

namespace Clausal

/-- A literal of a rule: the name of the rule, and where the literal is. -/
structure Place where
  rule : String
  condition : Nat
  literal : Nat
deriving DecidableEq

def Place.text (p : Place) : String :=
  s!"rule `{p.rule}` condition {Text.decimal p.condition} literal {Text.decimal p.literal}"

inductive ValidationError
  | outOfScope (place : Place) (schemaId : String)
  | directRecursion (place : Place)
  | arityMismatch (place : Place) (predicate : String) (expected found : Nat)
  | typeMismatch (place : Place) (predicate : String) (position : Nat) (expected found : String)
  | emptyVariable (place : Place)
  | nestedNegatedRef (place : Place)
  | notAroundRef (place : Place)
  | disallowedConstruct (place : Place) (op : String)
  | probabilityOutOfRange (rule : String) (condition : Nat) (value : Binary64)
deriving DecidableEq

def ValidationError.message : ValidationError → String
  | outOfScope p schemaId => s!"{p.text}: predicate {schemaId} is outside the view"
  | directRecursion p => s!"{p.text}: head predicate refers to itself"
  | arityMismatch p predicate expected found =>
    s!"{p.text}: `{predicate}` expects {Text.decimal expected} terms, got {Text.decimal found}"
  | typeMismatch p predicate position expected found =>
    s!"{p.text}: `{predicate}` argument {Text.decimal position} expects {expected}, got {found}"
  | emptyVariable p => s!"{p.text}: empty variable name"
  | nestedNegatedRef p => s!"{p.text}: negated reference nested inside an expression"
  | notAroundRef p => s!"{p.text}: `not` wraps a predicate reference"
  | disallowedConstruct p op =>
    s!"{p.text}: `{op}` is not allowed (aggregates and cut are rejected)"
  | probabilityOutOfRange rule condition value =>
    s!"rule `{rule}` condition {Text.decimal condition}: " ++
      s!"probability {value.text .plain} is outside [0.0, 1.0]"

end Clausal
