import Clausal.Library.Handlers
import Clausal.Registry.Basic
import Clausal.Render.Atom
import Clausal.Render.Config

/-!
# Writing clauses

The parts of clauses that the Prolog family of dialects shares: atoms, expressions, heads and
bodies. The head of a relation is about two variables for its endpoints; where the body only has the
key variables of an endpoint, a binding of the endpoint variable can be added to it.
-/

namespace Clausal

/-- How a choice between expressions is written. -/
inductive ChoiceStyle
  /-- As a disjunction, where the condition is negated on the other side. -/
  | disjunction
  /-- With an arrow. -/
  | arrow
deriving DecidableEq, Repr

/-- What is consulted besides the thing to be written. -/
structure RenderContext where
  source : Source
  library : Option Library
  handlers : Option Handlers
  config : RenderConfig

/-- A way to write clauses of one dialect. -/
structure Writer where
  context : RenderContext
  dialect : String
  style : ChoiceStyle
  config : RenderConfig

/-- What the identifier in a reference stands for. -/
inductive Resolved
  | schema (s : Schema)
  | library (name : String) (handler : Option Handler)

/-- The variable for a side in the head of a relation rule, before it is named. -/
def Side.headVar : Side → String
  | .sub => "Sub"
  | .obj => "Obj"

/-- The names of the variables in the head of a rule. -/
def Schema.headNames : Schema → List String
  | .fact f => f.signature.names
  | .rel r => Side.sub.headVar :: Side.obj.headVar :: r.props.names

/-- The operators that are written between their two arguments. -/
def infixSymbols : List (String × String) :=
  [("eq", "="), ("ne", "\\="), ("lt", "<"), ("le", "=<"), ("gt", ">"), ("ge", ">="), ("add", "+"),
   ("sub", "-"), ("mul", "*"), ("div", "/"), ("mod", "mod")]

/-- The symbol of an operator that is written between its arguments. -/
def infixSymbol? (op : String) (arity : Nat) : Option String :=
  if arity = 2 then infixSymbols.lookup op else none

/-- Whether an expression is written with a symbol between its arguments. -/
def Expr.isInfixCall : Expr → Bool
  | .call op args => (infixSymbol? op args.length).isSome
  | _ => false

/-- The atom of a relation for written terms, one for each argument: those for the key fields of an
endpoint are grouped under the name of the endpoint. -/
def RelSchema.atom (r : RelSchema) (terms : List String) : Except RenderError String :=
  let subs := r.subKeyFields.length
  let objs := r.objKeyFields.length
  let expected := subs + objs + r.props.length
  if terms.length ≠ expected then .error (.relationShape r.name expected terms.length)
  else .ok (compound r.name (compound r.sub.name (terms.take subs) ::
    compound r.obj.name ((terms.drop subs).take objs) :: terms.drop (subs + objs)))

namespace Writer

/-- The writer for things that have no wishes of their own. -/
def plain (context : RenderContext) (dialect : String) (style : ChoiceStyle) : Writer :=
  ⟨context, dialect, style, context.config⟩

/-- The writer for a rule, which heeds its overrides. -/
def forRule (context : RenderContext) (dialect : String) (style : ChoiceStyle) (r : Rule) :
    Writer :=
  ⟨context, dialect, style, context.config.merged r.overrides⟩

/-- The variable for a name. -/
def var (w : Writer) (name : String) : Except RenderError String := w.config.namer.render name

def term (w : Writer) : Term → Except RenderError String
  | .var v => w.var v.name
  | .const c => c.value.toTerm

def handler? (w : Writer) (key : SpecKey) : Option Handler :=
  w.context.handlers.bind fun h => h.get? key w.dialect

/-- How the library maps a spec. -/
def mapping? (w : Writer) (key : SpecKey) : Option String :=
  w.context.library.bind fun l => l.mapping? key w.dialect

/-- What an identifier stands for: a schema of the source, or else a predicate of the library. -/
def resolve (w : Writer) (schemaId : String) : Except RenderError Resolved :=
  match w.context.source schemaId with
  | .ok s => .ok (.schema s)
  | .error _ =>
    match w.context.library.bind fun l => l.predicate? schemaId with
    | none => .error (.unknownPredicate schemaId)
    | some spec =>
      let key : SpecKey := ⟨spec.name, spec.arity, .predicate⟩
      .ok (.library ((w.mapping? key).getD spec.name) (w.handler? key))

/-- A predicate applied to written terms. -/
def atom (target : Resolved) (terms : List String) : Except RenderError String :=
  match target with
  | .schema (.fact f) => .ok (compound f.name terms)
  | .schema (.rel r) => r.atom terms
  | .library _ (some handler) => .ok (handler terms)
  | .library name none => .ok (compound name terms)

/-- The atom of a reference, whether or not it is negated. -/
def refAtom (w : Writer) (r : Ref) : Except RenderError String := do
  let target ← w.resolve r.schemaId
  let terms ← r.terms.mapM w.term
  atom target terms

/-- An operator applied to written arguments. -/
def application (w : Writer) (op : String) (args : List String) : Except RenderError String :=
  let key : SpecKey := ⟨op, args.length, .expr⟩
  match infixSymbol? op args.length, args with
  | some symbol, [a, b] => .ok (a ++ " " ++ symbol ++ " " ++ b)
  | _, _ =>
    match w.handler? key, w.mapping? key with
    | some handler, _ => .ok (handler args)
    | none, some template => (Template.fill template args).mapError (.badMapping op template)
    | none, none => .ok (compound op args)

/-- A choice between written expressions. -/
def choice (style : ChoiceStyle) (condition yes no : String) : String :=
  match style with
  | .disjunction =>
    "((" ++ condition ++ ", " ++ yes ++ ") ; (\\+ (" ++ condition ++ "), " ++ no ++ "))"
  | .arrow => "(" ++ condition ++ " -> " ++ yes ++ " ; " ++ no ++ ")"

mutual

def expr (w : Writer) : Expr → Except RenderError String
  | .var v => w.var v.name
  | .const c => c.value.toTerm
  | .ref r => if r.negated then .error (.negatedRefInExpr r.schemaId) else w.refAtom r
  | .unify lhs rhs => do
    let l ← expr w lhs
    let r ← expr w rhs
    return l ++ " = " ++ r
  | .call op args => do
    let written ← exprs w (infixSymbol? op args.length).isSome args
    w.application op written
  | .choice condition yes no => do
    let c ← expr w condition
    let y ← expr w yes
    let n ← expr w no
    return choice w.style c y n
  | .not e => do
    let inner ← expr w e
    return "\\+ (" ++ inner ++ ")"

/-- Arguments as they are written; around a symbol, those with a symbol of their own are put in
parentheses. -/
def exprs (w : Writer) (aroundSymbol : Bool) : List Expr → Except RenderError (List String)
  | [] => .ok []
  | e :: rest => do
    let text ← expr w e
    let others ← exprs w aroundSymbol rest
    return (if aroundSymbol && e.isInfixCall then "(" ++ text ++ ")" else text) :: others

end

def literal (w : Writer) : Literal → Except RenderError String
  | .ref r => do
    let a ← w.refAtom r
    return if r.negated then "\\+ " ++ a else a
  | .expr e => w.expr e

/-- Fails when a prop becomes one of the variables for the endpoints. -/
def checkReserved (w : Writer) (r : RelSchema) : Except RenderError Unit := do
  let reserved ← [Side.sub.headVar, Side.obj.headVar].mapM w.var
  r.props.args.forM fun prop => do
    let rendered ← w.var prop.name
    if rendered ∈ reserved then throw (.reservedHeadVariable r.name prop.name rendered)

def head (w : Writer) (s : Schema) : Except RenderError String := do
  if let .rel r := s then w.checkReserved r
  let _ ← w.config.namer.renderAll s.headNames
  return compound s.name (← s.headNames.mapM w.var)

/-- The binding of the variable for a side to the key variables of that side, unless the variable is
bound already. -/
def sideBinding (w : Writer) (r : RelSchema) (condition : Nat) (bound : List String) (side : Side) :
    Except RenderError (Option String) := do
  let v ← w.var side.headVar
  if v ∈ bound then return none
  let keyVars ← (r.keyFieldsOf side).mapM fun k => w.var (side.headVar ++ "_" ++ k)
  let missing := keyVars.filter fun k => !bound.contains k
  if missing ≠ [] then throw (.unboundEndpoint r.name condition side missing)
  return v ++ " = " ++ compound (r.endpoint side).name keyVars

/-- The bindings to add to the body of a relation rule. -/
def bindings (w : Writer) (r : RelSchema) (condition : Nat) (c : Condition) :
    Except RenderError (List String) := do
  let bound ← c.varNames.mapM w.var
  let sub ← w.sideBinding r condition bound .sub
  let obj ← w.sideBinding r condition bound .obj
  return sub.toList ++ obj.toList

/-- The body of a clause. The variables of head and body have to stay apart when they are named. -/
def body (w : Writer) (s : Schema) (condition : Nat) (c : Condition) :
    Except RenderError String := do
  let _ ← w.config.namer.renderAll (s.headNames ++ c.varNames)
  let literals ← c.literals.mapM w.literal
  let added ← match s, w.config.binding with
    | .rel r, .auto => w.bindings r condition c
    | _, _ => .ok []
  let parts := literals ++ added
  return if parts.isEmpty then "true" else commaList parts

def factAtom (w : Writer) (r : Record) : Except RenderError String := do
  let s ← (w.context.source r.schemaId).mapError .schema
  let values ← (r.toTerms s).mapError .schema
  atom (.schema s) (← values.mapM Value.toTerm)

def queryAtom (w : Writer) (q : Query) : Except RenderError String := do
  let _ ← w.config.namer.renderAll (Term.varNames q.terms)
  let terms ← q.terms.mapM w.term
  match q.target with
  | .schema s => atom (.schema s) terms
  | .lookup schemaId => atom (← w.resolve schemaId) terms

end Writer

end Clausal
