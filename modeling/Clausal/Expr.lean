import Clausal.Record.Basic

/-!
# Terms, references and expressions

A reference applies a predicate, named by its schema identifier, to terms. Expressions are built
from variables, constants and references by calls of operators, unification, choice and negation.
-/

namespace Clausal

/-- A variable, with a note of its datatype. -/
structure Var where
  name : String
  datatype : Option String
deriving DecidableEq

/-- A constant, with a note of its datatype. -/
structure Const where
  value : Value
  datatype : Option String
deriving DecidableEq

/-- An argument of a reference. -/
inductive Term
  | var (v : Var)
  | const (c : Const)
deriving DecidableEq

/-- A predicate applied to terms, or the negation of that. -/
structure Ref where
  schemaId : String
  terms : List Term
  negated : Bool
deriving DecidableEq

inductive Expr
  | var (v : Var)
  | const (c : Const)
  | call (op : String) (args : List Expr)
  | unify (lhs rhs : Expr)
  | choice (condition yes no : Expr)
  | not (e : Expr)
  | ref (r : Ref)

namespace Term

def varName? : Term → Option String
  | .var v => some v.name
  | .const _ => none

def varNames (terms : List Term) : List String := terms.filterMap varName?

/-- Fails when a term cannot stand for an argument: a variable without a name, or a constant of
another datatype. -/
def check (predicate : String) (position : Nat) (a : Arg) : Term → Except SchemaError Unit
  | .var v =>
    if Text.trim v.name = "" then .error (.emptyVariableName position predicate) else .ok ()
  | .const c =>
    if c.datatype.any (!Datatype.agree · a.datatype) then
      .error (.datatypeMismatch predicate position a.datatype (c.datatype.getD ""))
    else Record.checkValue predicate a.name a.datatype c.value

/-- Fails at the first term that cannot stand for its argument. -/
def checkFrom (predicate : String) (position : Nat) : List (Term × Arg) → Except SchemaError Unit
  | [] => .ok ()
  | (t, a) :: rest => do
    t.check predicate position a
    checkFrom predicate (position + 1) rest

/-- Fails when terms cannot stand for the arguments of a predicate. -/
def checkAll (s : Schema) (terms : List Term) : Except SchemaError Unit :=
  if terms.length ≠ s.arity then .error (.arityMismatch s.name s.arity terms.length)
  else checkFrom s.name 0 (terms.zip s.signature.args)

end Term

namespace Ref

/-- A predicate applied to terms that nothing is known about. -/
def unchecked (schemaId : String) (terms : List Term) : Ref := ⟨schemaId, terms, false⟩

/-- A predicate applied to terms that can stand for its arguments. -/
def ofTerms (s : Schema) (terms : List Term) : Except SchemaError Ref := do
  Term.checkAll s terms
  return unchecked s.id terms

/-- The constant terms of values for arguments. -/
def constants (values : List Value) (signature : List Arg) : List Term :=
  (values.zip signature).map fun p => .const ⟨p.1, some p.2.datatype⟩

/-- The reference that a record makes true. -/
def ofRecord (r : Record) (s : Schema) : Except SchemaError Ref := do
  let values ← r.toTerms s
  ofTerms s (constants values s.signature.args)

def negate (r : Ref) : Ref := { r with negated := !r.negated }

/-- Fails when the terms cannot stand for the arguments of a predicate. -/
def checkAgainst (r : Ref) (s : Schema) : Except SchemaError Unit := Term.checkAll s r.terms

end Ref

namespace Expr

mutual

/-- The names of the variables from left to right, each as often as it occurs. -/
def varOccurrences : Expr → List String
  | .var v => [v.name]
  | .const _ => []
  | .call _ args => varOccurrencesOfAll args
  | .unify lhs rhs => varOccurrences lhs ++ varOccurrences rhs
  | .choice condition yes no =>
    varOccurrences condition ++ varOccurrences yes ++ varOccurrences no
  | .not e => varOccurrences e
  | .ref r => Term.varNames r.terms

def varOccurrencesOfAll : List Expr → List String
  | [] => []
  | e :: rest => varOccurrences e ++ varOccurrencesOfAll rest

end

/-- A list without what it has had before. -/
def firstOccurrences (seen : List String) : List String → List String
  | [] => []
  | name :: rest =>
    if name ∈ seen then firstOccurrences seen rest else name :: firstOccurrences (name :: seen) rest

/-- The names of the variables from left to right, each at its first occurrence. -/
def varNames (e : Expr) : List String := firstOccurrences [] e.varOccurrences

end Expr

end Clausal
