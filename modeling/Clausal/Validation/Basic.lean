import Clausal.Library.Basic
import Clausal.Registry.View
import Clausal.Rule.Basic
import Clausal.Validation.Error

/-!
# Validation of rules

A rule may refer to the predicates of a view and of a library, but not to its own head. Its terms
have to fit what they stand for, references under a negation or negated inside an expression are
refused, and so are aggregates and cuts. The first violation from left to right is reported.
-/

namespace Clausal

/-- What a rule may refer to. -/
structure Validator where
  view : View
  library : Option Library

/-- A predicate that a reference names. A datatype is missing where every value is admitted. -/
structure Target where
  predicate : String
  datatypes : List (Option String)
deriving DecidableEq

namespace Validator

/-- The predicate that an identifier names. -/
def target? (v : Validator) (schemaId : String) : Option Target :=
  match v.view.get schemaId with
  | .ok s => some ⟨s.name, s.signature.args.map fun a => some a.datatype⟩
  | .error _ => do
    let spec ← (← v.library).predicate? schemaId
    match spec.signature with
    | some datatypes => return ⟨spec.name, datatypes.map some⟩
    | none => return ⟨spec.name, List.replicate spec.arity none⟩

/-- Fails when a variable has no name. -/
def checkVar (place : Place) (name : String) : Except ValidationError Unit :=
  if Text.trim name = "" then .error (.emptyVariable place) else .ok ()

/-- Fails when a constant does not fit a datatype. -/
def checkConst (place : Place) (predicate : String) (position : Nat) (datatype : String)
    (c : Const) : Except ValidationError Unit :=
  if c.datatype.any (!Datatype.agree · datatype) then
    .error (.typeMismatch place predicate position datatype (c.datatype.getD ""))
  else if !c.value.fits datatype then
    .error (.typeMismatch place predicate position datatype c.value.datatype)
  else .ok ()

/-- Fails at the first term that does not fit its place. -/
def checkTerms (place : Place) (predicate : String) (position : Nat) :
    List (Term × Option String) → Except ValidationError Unit
  | [] => .ok ()
  | (.var v, _) :: rest => do
    checkVar place v.name
    checkTerms place predicate (position + 1) rest
  | (.const c, some datatype) :: rest => do
    checkConst place predicate position datatype c
    checkTerms place predicate (position + 1) rest
  | (.const _, none) :: rest => checkTerms place predicate (position + 1) rest

/-- Fails when a reference is to the head, to nothing that is known, or does not fit. -/
def checkRef (v : Validator) (headId : String) (place : Place) (r : Ref) :
    Except ValidationError Unit :=
  if r.schemaId = headId then .error (.directRecursion place)
  else match v.target? r.schemaId with
    | none => .error (.outOfScope place r.schemaId)
    | some t =>
      if r.terms.length ≠ t.datatypes.length then
        .error (.arityMismatch place t.predicate t.datatypes.length r.terms.length)
      else checkTerms place t.predicate 0 (r.terms.zip t.datatypes)

mutual

/-- Fails at the first violation in an expression; `underNot` says whether a negation is around. -/
def checkExpr (v : Validator) (headId : String) (place : Place) (underNot : Bool) :
    Expr → Except ValidationError Unit
  | .var x => checkVar place x.name
  | .const _ => .ok ()
  | .ref r =>
    if r.negated then .error (.nestedNegatedRef place)
    else if underNot then .error (.notAroundRef place)
    else checkRef v headId place r
  | .call op args =>
    if isDisallowed op then .error (.disallowedConstruct place op)
    else checkExprs v headId place underNot args
  | .unify lhs rhs => do
    checkExpr v headId place underNot lhs
    checkExpr v headId place underNot rhs
  | .choice condition yes no => do
    checkExpr v headId place underNot condition
    checkExpr v headId place underNot yes
    checkExpr v headId place underNot no
  | .not e => checkExpr v headId place true e

def checkExprs (v : Validator) (headId : String) (place : Place) (underNot : Bool) :
    List Expr → Except ValidationError Unit
  | [] => .ok ()
  | e :: rest => do
    checkExpr v headId place underNot e
    checkExprs v headId place underNot rest

end

def checkLiteral (v : Validator) (headId : String) (place : Place) :
    Literal → Except ValidationError Unit
  | .ref r => checkRef v headId place r
  | .expr e => checkExpr v headId place false e

/-- Fails at the first violation in literals, the first of which has the given index. -/
def checkLiterals (v : Validator) (head : Schema) (condition index : Nat) :
    List Literal → Except ValidationError Unit
  | [] => .ok ()
  | l :: rest => do
    checkLiteral v head.id ⟨head.name, condition, index⟩ l
    checkLiterals v head condition (index + 1) rest

/-- Fails when a given probability is none. -/
def checkProbability (rule : String) (condition : Nat) (prob : Option Binary64) :
    Except ValidationError Unit :=
  match prob with
  | some p =>
    if p.inUnitInterval then .ok () else .error (.probabilityOutOfRange rule condition p)
  | none => .ok ()

/-- Fails at the first violation in conditions, the first of which has the given index. -/
def checkConditions (v : Validator) (head : Schema) (index : Nat) :
    List Condition → Except ValidationError Unit
  | [] => .ok ()
  | c :: rest => do
    checkProbability head.name index c.prob
    checkLiterals v head index 0 c.literals
    checkConditions v head (index + 1) rest

/-- Fails at the first violation in a rule. -/
def validate (v : Validator) (r : Rule) : Except ValidationError Unit :=
  checkConditions v r.head 0 r.conditions

end Validator

end Clausal
