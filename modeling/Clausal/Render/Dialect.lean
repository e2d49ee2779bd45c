import Clausal.Render.Writer

/-!
# Dialects

Prolog drops probabilities. ProbLog writes one in front of every fact and clause, and by default a
comment above each clause. The other dialects are declared but write nothing. A program has its
facts first, then its rules, then its queries.
-/

namespace Clausal

/-- The dialects that are known. -/
inductive Dialect
  | cypher
  | datalog
  | problog
  | prolog
deriving DecidableEq, Repr

namespace Dialect

def name : Dialect → String
  | .cypher => "cypher"
  | .datalog => "datalog"
  | .problog => "problog"
  | .prolog => "prolog"

def all : List Dialect := [.cypher, .datalog, .problog, .prolog]

/-- Whether a dialect is declared only. -/
def isStub : Dialect → Bool
  | .cypher | .datalog => true
  | .problog | .prolog => false

def choiceStyle : Dialect → ChoiceStyle
  | .prolog => .arrow
  | _ => .disjunction

/-- Texts on lines of their own. -/
def lines (texts : List String) : String := String.intercalate "\n" texts

/-- A probability in front of a fact or clause. -/
def annotation (p : Binary64) : String := p.text .term ++ "::"

def headArity (s : Schema) : Nat := s.headNames.length

/-- The comment above a clause. -/
def comment (head : Schema) (index total : Nat) (p : Binary64) (origin : ProbabilityOrigin) :
    String :=
  s!"% {head.name}/{Text.decimal (headArity head)} clause {Text.decimal (index + 1)} " ++
    s!"of {Text.decimal total}: probability {p.text .term} ({origin.text})"

/-- A clause, from its written head and body. -/
def clause (head body : String) : String := head ++ " :- " ++ body ++ "."

/-- The lines for a condition of a rule in Prolog. -/
def prologClause (w : Writer) (s : Schema) (head : String) (index : Nat) (c : Condition) :
    Except RenderError (List String) := do
  return [clause head (← w.body s index c)]

/-- The lines for a condition of a rule in ProbLog. -/
def problogClause (w : Writer) (s : Schema) (head : String) (total index : Nat) (c : Condition) :
    Except RenderError (List String) := do
  let (p, origin) ← w.config.probability.resolveRule c.prob
    s!"rule `{s.name}` condition {Text.decimal index}"
  let text := annotation p ++ clause head (← w.body s index c)
  return if w.config.comments then [comment s index total p origin, text] else [text]

/-- The lines for the conditions of a rule, the first of which has the given index. -/
def clauseLines (write : Nat → Condition → Except RenderError (List String)) (index : Nat) :
    List Condition → Except RenderError (List String)
  | [] => .ok []
  | c :: rest => do
    let first ← write index c
    return first ++ (← clauseLines write (index + 1) rest)

/-- A rule, with one clause for each condition. -/
def renderRule (d : Dialect) (context : RenderContext) (r : Rule) : Except RenderError String :=
  let w := Writer.forRule context d.name d.choiceStyle r
  match d with
  | .prolog => do
    let head ← w.head r.head
    return lines (← clauseLines (prologClause w r.head head) 0 r.conditions)
  | .problog => do
    let head ← w.head r.head
    return lines (← clauseLines (problogClause w r.head head r.conditions.length) 0 r.conditions)
  | _ => .error (.unsupportedDialect d.name)

/-- A fact, which has the given index among facts. -/
def factLine (d : Dialect) (w : Writer) (index : Nat) (r : Record) : Except RenderError String := do
  match d with
  | .problog =>
    let (p, _) ← w.config.probability.resolveFact r.prob s!"fact {Text.decimal index}"
    return annotation p ++ (← w.factAtom r) ++ "."
  | _ => return (← w.factAtom r) ++ "."

/-- The lines for facts, the first of which has the given index. -/
def factLines (d : Dialect) (w : Writer) (index : Nat) :
    List Record → Except RenderError (List String)
  | [] => .ok []
  | r :: rest => do
    let first ← d.factLine w index r
    return first :: (← factLines d w (index + 1) rest)

/-- Facts, each on its line. -/
def renderFacts (d : Dialect) (context : RenderContext) (records : List Record) :
    Except RenderError String :=
  if d.isStub then .error (.unsupportedDialect d.name)
  else lines <$> d.factLines (.plain context d.name d.choiceStyle) 0 records

def renderQuery (d : Dialect) (context : RenderContext) (q : Query) : Except RenderError String :=
  let w := Writer.plain context d.name d.choiceStyle
  match d with
  | .prolog => do return "?- " ++ (← w.queryAtom q) ++ "."
  | .problog => do return "query(" ++ (← w.queryAtom q) ++ ")."
  | _ => .error (.unsupportedDialect d.name)

/-- Queries, each on its line. -/
def renderQueries (d : Dialect) (context : RenderContext) (queries : List Query) :
    Except RenderError String :=
  if d.isStub then .error (.unsupportedDialect d.name)
  else lines <$> queries.mapM (d.renderQuery context)

/-- A section of a program, if there is anything to be written in it. -/
def section? {α : Type} (items : List α) (write : List α → Except RenderError String) :
    Except RenderError (List String) :=
  if items.isEmpty then .ok [] else do return [← write items]

/-- A program. Sections with something in them are apart by a blank line. -/
def renderProgram (d : Dialect) (context : RenderContext) (records : List Record)
    (rules : List Rule) (queries : List Query) : Except RenderError String :=
  if d.isStub then .error (.unsupportedDialect d.name)
  else do
    let facts ← section? records (d.renderFacts context)
    let clauses ← section? rules fun rs => lines <$> rs.mapM (d.renderRule context)
    let goals ← section? queries (d.renderQueries context)
    return String.intercalate "\n\n" ((facts ++ clauses ++ goals).filter (· ≠ ""))

end Dialect

/-- The dialects that can be asked for, in the order of their names. -/
structure Renderers where
  dialects : List Dialect
  sublist : dialects.Sublist Dialect.all
deriving DecidableEq

namespace Renderers

def empty : Renderers := ⟨[], List.nil_sublist _⟩

def standard : Renderers := ⟨Dialect.all, .refl _⟩

def names (r : Renderers) : List String := r.dialects.map Dialect.name

def insert (r : Renderers) (d : Dialect) : Except RenderError Renderers :=
  if d ∈ r.dialects then .error (.duplicateDialect d.name)
  else .ok ⟨Dialect.all.filter fun x => x ∈ d :: r.dialects, List.filter_sublist⟩

def find (r : Renderers) (name : String) : Except RenderError Dialect :=
  match r.dialects.find? (·.name == name) with
  | some d => .ok d
  | none => .error (.unknownDialect name)

end Renderers

end Clausal
