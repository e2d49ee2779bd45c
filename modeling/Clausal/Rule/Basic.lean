import Clausal.Expr

/-!
# Rules and queries

A rule derives its head from any of its conditions; a condition is a conjunction of literals, with
a probability if it has one. A query asks for a predicate applied to terms.
-/

namespace Clausal

/-- How names of variables become variables of the target language. -/
inductive NamingMode
  /-- They are taken as they are. -/
  | error
  /-- They are repaired. -/
  | sanitize
  /-- They are put after a prefix. -/
  | prefixed
  /-- Their first letter is made a capital. -/
  | capitalize
deriving DecidableEq, Repr

namespace NamingMode

def text : NamingMode → String
  | .error => "error"
  | .sanitize => "sanitize"
  | .prefixed => "prefix"
  | .capitalize => "capitalize"

def words : List (String × NamingMode) :=
  [("error", .error), ("sanitize", .sanitize), ("prefix", .prefixed), ("capitalize", .capitalize)]

end NamingMode

/-- How the endpoint variables of a relation head get their values. -/
inductive Binding
  /-- They are bound to the key variables in the body. -/
  | auto
  /-- The body is rendered as it is written. -/
  | explicit
deriving DecidableEq, Repr

namespace Binding

def text : Binding → String
  | .auto => "auto"
  | .explicit => "explicit"

def words : List (String × Binding) := [("auto", .auto), ("explicit", .explicit)]

end Binding

/-- What a rule wants of its rendering. -/
structure Overrides where
  naming : Option NamingMode
  varPrefix : Option String
  binding : Option Binding
deriving DecidableEq

def Overrides.none : Overrides := ⟨.none, .none, .none⟩

/-- A conjunct of a condition. -/
inductive Literal
  | ref (r : Ref)
  | expr (e : Expr)

/-- The names of the variables of a literal, from left to right. -/
def Literal.varNames : Literal → List String
  | .ref r => Term.varNames r.terms
  | .expr e => e.varNames

/-- One way to derive the head of a rule. -/
structure Condition where
  literals : List Literal
  prob : Option Binary64

namespace Condition

/-- Fails when a given probability is none. -/
def checkProbability (c : Condition) : Except SchemaError Unit :=
  match c.prob with
  | some p =>
    if p.inUnitInterval then .ok () else .error (.probabilityOutOfRange "condition probability" p)
  | none => .ok ()

/-- The condition of literals with a probability. -/
def withProbability (literals : List Literal) (prob : Binary64) : Except SchemaError Condition := do
  let c : Condition := ⟨literals, prob⟩
  c.checkProbability
  return c

def varNames (c : Condition) : List String := c.literals.flatMap Literal.varNames

end Condition

/-- A head with the conditions that derive it. -/
structure Rule where
  head : Schema
  conditions : List Condition
  overrides : Overrides

/-- What a query asks about: a schema, or an identifier that is looked up later. -/
inductive QueryTarget
  | schema (s : Schema)
  | lookup (schemaId : String)

/-- The identifier of the schema that a query asks about. -/
def QueryTarget.schemaId : QueryTarget → String
  | .schema s => s.id
  | .lookup schemaId => schemaId

/-- A predicate applied to terms, to be answered. -/
structure Query where
  target : QueryTarget
  terms : List Term

namespace Query

/-- A query about a schema, whose terms can stand for its arguments. -/
def forSchema (s : Schema) (terms : List Term) : Except SchemaError Query := do
  Term.checkAll s terms
  return ⟨.schema s, terms⟩

/-- A query about an identifier that is not blank. -/
def forId (schemaId : String) (terms : List Term) : Except SchemaError Query :=
  if Text.trim schemaId = "" then .error .emptyQuery else .ok ⟨.lookup schemaId, terms⟩

end Query

end Clausal
