import Clausal.Rule.Basic

/-!
# What stands in a rule

The variables, constants, references and operators that stand in an expression or a literal, at any
depth. They are listed from left to right, an operator before its arguments.
-/

namespace Clausal

/-- What stands at one place of an expression. -/
inductive Node
  | var (name : String)
  | value (v : Value)
  | ref (r : Ref)
  /-- An operator with its number of arguments. -/
  | operator (name : String) (arity : Nat)

namespace Expr

mutual

/-- What stands in an expression. -/
def nodes : Expr → List Node
  | .var v => [.var v.name]
  | .const c => [.value c.value]
  | .call op args => .operator op args.length :: nodesOfAll args
  | .unify lhs rhs => nodes lhs ++ nodes rhs
  | .choice condition yes no => nodes condition ++ nodes yes ++ nodes no
  | .not e => nodes e
  | .ref r => [.ref r]

def nodesOfAll : List Expr → List Node
  | [] => []
  | e :: rest => nodes e ++ nodesOfAll rest

end

end Expr

def Literal.nodes : Literal → List Node
  | .ref r => [.ref r]
  | .expr e => e.nodes

def Condition.nodes (c : Condition) : List Node := c.literals.flatMap Literal.nodes

/-- What stands in the bodies of a rule. -/
def Rule.nodes (r : Rule) : List Node := r.conditions.flatMap Condition.nodes

end Clausal
