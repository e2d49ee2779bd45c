import Clausal.Proofs.Render.Phrase
import Clausal.Proofs.Rule.Nodes
import Mathlib.Data.List.Basic
import Mathlib.Tactic.Tauto

/-!
# The parts of a phrase

Main statement: `Writer.parts_of_literals`. A phrase is put together from its parts: variables,
constants, symbols of operators, and functors, which are names that are applied to arguments or stand
alone. The parts of a body are those for the nodes of the condition one by one. Its functors are
therefore known node by node (`Writer.functors_of_partsOfAll`), and so are its variables.
-/

namespace Clausal

/-- A part of a phrase. -/
inductive Part
  | var (text : String)
  | word (text : String)
  | symbol (text : String)
  | functor (name : String)

namespace Part

def text : Part → String
  | .var t | .word t | .symbol t | .functor t => t

def functor? : Part → Option String
  | .functor name => some name
  | .var _ | .word _ | .symbol _ => none

def var? : Part → Option String
  | .var t => some t
  | .word _ | .symbol _ | .functor _ => none

theorem functors_var (names : List String) : (names.map var).filterMap functor? = [] := by
  rw [List.filterMap_map]
  exact List.filterMap_eq_nil_iff.2 fun _ _ => rfl

end Part

namespace Phrase

mutual

/-- The parts of a phrase, a symbol or functor before what it is applied to. -/
def parts : Phrase → List Part
  | .var t => [.var t]
  | .word t => [.word t]
  | .unify lhs rhs => parts lhs ++ parts rhs
  | .between symbol lhs rhs => .symbol symbol :: (parts lhs ++ parts rhs)
  | .apply name args => .functor name :: partsOfAll args
  | .choice condition yes no => parts condition ++ parts yes ++ parts no
  | .not e => parts e
  | .negated atom => parts atom

def partsOfAll : List Phrase → List Part
  | [] => []
  | p :: rest => parts p ++ partsOfAll rest

end

theorem partsOfAll_eq_flatMap (ps : List Phrase) : partsOfAll ps = ps.flatMap parts := by
  induction ps with
  | nil => rfl
  | cons p rest ih => rw [partsOfAll, ih, List.flatMap_cons]

theorem partsOfAll_append (ps qs : List Phrase) :
    partsOfAll (ps ++ qs) = partsOfAll ps ++ partsOfAll qs := by
  simp only [partsOfAll_eq_flatMap, List.flatMap_append]

theorem partsOfAll_var (names : List String) : partsOfAll (names.map .var) = names.map .var := by
  rw [partsOfAll_eq_flatMap, List.flatMap_map]
  exact List.flatMap_pure_eq_map _ names

/-- The part of an operator with a number of arguments. -/
def operatorPart (op : String) (arity : Nat) : Part :=
  (infixSymbol? op arity).elim (.functor op) .symbol

theorem parts_call (op : String) (args : List Phrase) :
    (call op args).parts = operatorPart op args.length :: partsOfAll args := by
  rcases call_cases op args with ⟨symbol, a, b, rfl, found, eq⟩ | ⟨none, eq⟩
  · rw [eq, operatorPart, List.length_cons, List.length_singleton, found]
    simp [parts, partsOfAll]
  · rw [eq, operatorPart, none, parts]
    rfl

/-- The functors of a phrase, from left to right. -/
def functors (p : Phrase) : List String := p.parts.filterMap Part.functor?

def functorsOfAll (ps : List Phrase) : List String := (partsOfAll ps).filterMap Part.functor?

theorem functorsOfAll_append (ps qs : List Phrase) :
    functorsOfAll (ps ++ qs) = functorsOfAll ps ++ functorsOfAll qs := by
  simp only [functorsOfAll, partsOfAll_append, List.filterMap_append]

theorem functorsOfAll_cons (p : Phrase) (ps : List Phrase) :
    functorsOfAll (p :: ps) = p.functors ++ functorsOfAll ps :=
  List.filterMap_append

theorem functors_apply (name : String) (args : List Phrase) :
    (apply name args).functors = name :: functorsOfAll args := rfl

theorem functorsOfAll_eq_nil {ps : List Phrase} (h : ∀ p ∈ ps, p.functors = []) :
    functorsOfAll ps = [] := by
  induction ps with
  | nil => rfl
  | cons p rest ih =>
    obtain ⟨first, later⟩ := List.forall_mem_cons.1 h
    rw [functorsOfAll_cons, first, ih later]
    rfl

/-- Whether a phrase is a variable or a constant. -/
def isTerm : Phrase → Bool
  | .var _ | .word _ => true
  | _ => false

theorem functors_of_isTerm {p : Phrase} (h : p.isTerm = true) : p.functors = [] := by
  cases p <;> first | rfl | cases h

end Phrase

/-! ### Atoms -/

/-- The names that an atom of a schema is written with: its own and those of its endpoints. -/
def Schema.functors : Schema → List String
  | .fact f => [f.name]
  | .rel r => [r.name, r.sub.name, r.obj.name]

namespace Phrase

theorem functors_atomPhrase {s : Schema} {terms : List Phrase} {p : Phrase}
    (h : s.atomPhrase terms = .ok p) (simple : ∀ t ∈ terms, t.isTerm = true) :
    p.functors = s.functors := by
  have plain : ∀ t ∈ terms, t.functors = [] := fun t ht => functors_of_isTerm (simple t ht)
  cases s with
  | fact f =>
    cases h
    rw [functors_apply, functorsOfAll_eq_nil plain, Schema.functors]
  | rel r =>
    rw [Schema.atomPhrase, RelSchema.atomPhrase] at h
    split at h
    · cases h
    · cases h
      have dropped {n : Nat} : functorsOfAll (terms.drop n) = [] :=
        functorsOfAll_eq_nil fun t ht => plain t (List.mem_of_mem_drop ht)
      have taken {n m : Nat} : functorsOfAll ((terms.drop n).take m) = [] :=
        functorsOfAll_eq_nil fun t ht => plain t (List.mem_of_mem_drop (List.mem_of_mem_take ht))
      have front {m : Nat} : functorsOfAll (terms.take m) = [] :=
        functorsOfAll_eq_nil fun t ht => plain t (List.mem_of_mem_take ht)
      simp only [functors_apply, functorsOfAll_cons, front, taken, dropped]
      rfl

/-- What an atom is put together from. -/
theorem mem_parts_atomPhrase {s : Schema} {terms : List Phrase} {p : Phrase}
    (h : s.atomPhrase terms = .ok p) (x : Part) :
    x ∈ p.parts ↔ x ∈ s.functors.map .functor ∨ x ∈ partsOfAll terms := by
  cases s with
  | fact f =>
    cases h
    simp [parts, Schema.functors]
  | rel r =>
    rw [Schema.atomPhrase, RelSchema.atomPhrase] at h
    split at h
    · cases h
    · cases h
      have split : partsOfAll terms = partsOfAll (terms.take r.subKeyFields.length) ++
          (partsOfAll ((terms.drop r.subKeyFields.length).take r.objKeyFields.length) ++
            partsOfAll (terms.drop (r.subKeyFields.length + r.objKeyFields.length))) := by
        rw [← partsOfAll_append, ← partsOfAll_append, ← List.drop_drop, List.take_append_drop,
          List.take_append_drop]
      rw [split]
      simp only [parts, partsOfAll, Schema.functors, List.map_cons, List.map_nil, List.mem_cons,
        List.mem_append, List.not_mem_nil, or_false]
      tauto

end Phrase

/-! ### Nodes -/

/-- The functors that a node is written with. -/
def Node.functors (source : Source) : Node → List String
  | .operator op arity => if (infixSymbol? op arity).isSome then [] else [op]
  | .ref r => ((source r.schemaId).toOption.map Schema.functors).getD []
  | .var _ | .value _ => []

namespace Writer

variable {w : Writer}

/-- The parts that are written for a node. -/
def partsOf (w : Writer) : Node → Except RenderError (List Part)
  | .var name => (fun t => [.var t]) <$> w.var name
  | .value v => (fun t => [.word t]) <$> v.toTerm
  | .operator op arity => .ok [Phrase.operatorPart op arity]
  | .ref r => Phrase.parts <$> w.refPhrase r

/-- The parts that are written for some nodes, one after the other. -/
def partsOfAll (w : Writer) (nodes : List Node) : Except RenderError (List Part) :=
  List.flatten <$> nodes.mapM w.partsOf

theorem partsOfAll_cons_eq_ok {n : Node} {nodes : List Node} {ps : List Part} :
    w.partsOfAll (n :: nodes) = .ok ps ↔
      ∃ first later, w.partsOf n = .ok first ∧ w.partsOfAll nodes = .ok later ∧
        first ++ later = ps := by
  unfold partsOfAll
  rw [map_eq_ok]
  constructor
  · rintro ⟨pss, written, rfl⟩
    obtain ⟨first, others, here, later, rfl⟩ := mapM_cons_eq_ok.1 written
    exact ⟨first, others.flatten, here, map_eq_ok.2 ⟨others, later, rfl⟩, rfl⟩
  · rintro ⟨first, later, here, written, rfl⟩
    obtain ⟨others, each, rfl⟩ := map_eq_ok.1 written
    exact ⟨_, mapM_cons_eq_ok.2 ⟨first, others, here, each, rfl⟩, rfl⟩

theorem partsOfAll_singleton {n : Node} {ps : List Part} (h : w.partsOf n = .ok ps) :
    w.partsOfAll [n] = .ok ps :=
  partsOfAll_cons_eq_ok.2 ⟨ps, [], h, rfl, List.append_nil ps⟩

theorem partsOfAll_append {nodes nodes' : List Node} {ps qs : List Part}
    (front : w.partsOfAll nodes = .ok ps) (back : w.partsOfAll nodes' = .ok qs) :
    w.partsOfAll (nodes ++ nodes') = .ok (ps ++ qs) := by
  obtain ⟨pss, eq, rfl⟩ := map_eq_ok.1 front
  obtain ⟨qss, eq', rfl⟩ := map_eq_ok.1 back
  exact map_eq_ok.2 ⟨_, mapM_append_eq_ok eq eq', List.flatten_append⟩

mutual

/-- The parts of a phrase are those of the nodes of the expression. -/
theorem parts_of_phrase : ∀ {e : Expr} {p : Phrase}, w.phrase e = .ok p →
    w.partsOfAll e.nodes = .ok p.parts
  | .var v, p, h => by
    obtain ⟨x, named, rfl⟩ := map_eq_ok.1 h
    exact partsOfAll_singleton (map_eq_ok.2 ⟨x, named, rfl⟩)
  | .const c, p, h => by
    obtain ⟨x, written, rfl⟩ := map_eq_ok.1 h
    exact partsOfAll_singleton (map_eq_ok.2 ⟨x, written, rfl⟩)
  | .ref r, p, h => by
    rw [phrase] at h
    split at h
    case isTrue => cases h
    case isFalse => exact partsOfAll_singleton (map_eq_ok.2 ⟨p, h, rfl⟩)
  | .unify lhs rhs, p, h => by
    obtain ⟨l, left, h⟩ := bind_eq_ok.1 h
    obtain ⟨r, right, h⟩ := bind_eq_ok.1 h
    cases h
    exact partsOfAll_append (parts_of_phrase left) (parts_of_phrase right)
  | .call op args, p, h => by
    -- the part of the operator stands before those of the arguments
    obtain ⟨ps, written, rfl⟩ := map_eq_ok.1 h
    rw [Phrase.parts_call, length_phrases written]
    exact partsOfAll_cons_eq_ok.2 ⟨[_], _, rfl, parts_of_phrases written, rfl⟩
  | .choice condition yes no, p, h => by
    obtain ⟨c, first, h⟩ := bind_eq_ok.1 h
    obtain ⟨y, second, h⟩ := bind_eq_ok.1 h
    obtain ⟨n, third, h⟩ := bind_eq_ok.1 h
    cases h
    have front := partsOfAll_append (parts_of_phrase first) (parts_of_phrase second)
    exact partsOfAll_append front (parts_of_phrase third)
  | .not e, p, h => by
    obtain ⟨q, inner, rfl⟩ := map_eq_ok.1 h
    rw [Expr.nodes, Phrase.parts]
    exact parts_of_phrase inner

theorem parts_of_phrases : ∀ {args : List Expr} {ps : List Phrase}, w.phrases args = .ok ps →
    w.partsOfAll (Expr.nodesOfAll args) = .ok (Phrase.partsOfAll ps)
  | [], ps, h => by
    cases h
    rfl
  | e :: rest, ps, h => by
    obtain ⟨p, first, h⟩ := bind_eq_ok.1 h
    obtain ⟨others, written, h⟩ := bind_eq_ok.1 h
    cases h
    exact partsOfAll_append (parts_of_phrase first) (parts_of_phrases written)

end

theorem parts_of_literalPhrase {l : Literal} {p : Phrase} (h : w.literalPhrase l = .ok p) :
    w.partsOfAll l.nodes = .ok p.parts := by
  cases l with
  | ref r =>
    obtain ⟨q, written, rfl⟩ := map_eq_ok.1 h
    refine partsOfAll_singleton (map_eq_ok.2 ⟨q, written, ?_⟩)
    split <;> rfl
  | expr e => exact parts_of_phrase h

theorem parts_of_literals {literals : List Literal} {ps : List Phrase}
    (h : literals.mapM w.literalPhrase = .ok ps) :
    w.partsOfAll (literals.flatMap Literal.nodes) = .ok (Phrase.partsOfAll ps) := by
  induction literals generalizing ps with
  | nil =>
    cases h
    rfl
  | cons l rest ih =>
    obtain ⟨p, qs, first, others, rfl⟩ := mapM_cons_eq_ok.1 h
    exact partsOfAll_append (parts_of_literalPhrase first) (ih others)

/-! ### Functors -/

theorem exists_of_refPhrase {r : Ref} {p : Phrase} (h : w.refPhrase r = .ok p) :
    ∃ s terms, w.context.source r.schemaId = .ok s ∧ r.terms.mapM w.termPhrase = .ok terms ∧
      s.atomPhrase terms = .ok p := by
  obtain ⟨s, found, h⟩ := bind_eq_ok.1 h
  obtain ⟨terms, each, h⟩ := bind_eq_ok.1 h
  exact ⟨s, terms, mapError_eq_ok.1 found, each, h⟩

theorem isTerm_of_termPhrase {t : Term} {p : Phrase} (h : w.termPhrase t = .ok p) :
    p.isTerm = true := by
  cases t <;> obtain ⟨x, -, rfl⟩ := map_eq_ok.1 h <;> rfl

theorem functors_of_partsOf {n : Node} {ps : List Part} (h : w.partsOf n = .ok ps) :
    ps.filterMap Part.functor? = n.functors w.context.source := by
  cases n with
  | var name =>
    obtain ⟨t, -, rfl⟩ := map_eq_ok.1 h
    rfl
  | value v =>
    obtain ⟨t, -, rfl⟩ := map_eq_ok.1 h
    rfl
  | operator op arity =>
    cases h
    rw [Phrase.operatorPart, Node.functors]
    cases infixSymbol? op arity <;> rfl
  | ref r =>
    obtain ⟨p, written, rfl⟩ := map_eq_ok.1 h
    obtain ⟨s, terms, known, each, written⟩ := exists_of_refPhrase written
    have simple := forall_of_mapM each fun _ _ => isTerm_of_termPhrase
    rw [Node.functors, known]
    exact Phrase.functors_atomPhrase written simple

theorem functors_of_partsOfAll {nodes : List Node} {ps : List Part}
    (h : w.partsOfAll nodes = .ok ps) :
    ps.filterMap Part.functor? = nodes.flatMap (Node.functors w.context.source) := by
  induction nodes generalizing ps with
  | nil =>
    cases h
    rfl
  | cons n rest ih =>
    obtain ⟨first, later, here, others, rfl⟩ := partsOfAll_cons_eq_ok.1 h
    rw [List.filterMap_append, List.flatMap_cons, functors_of_partsOf here, ih others]

end Writer

end Clausal
