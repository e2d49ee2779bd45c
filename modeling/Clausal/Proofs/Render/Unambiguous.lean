import Clausal.Proofs.Render.Tree

/-!
# What texts of expressions say

Main statement: `Writer.expr_unambiguous`. Expressions with the same text have the same pieces, and
the same tree of operators too, if every equation that is an argument of an operator stands in
parentheses. `Writer.expr_ambiguous` is about an equation that does not.
-/

namespace Clausal

namespace Expr

mutual

/-- There are no references, and an operator that is applied by its name has one in small letters. -/
def Plain : Expr → Prop
  | .var _ | .const _ => True
  | .call op args =>
    ((infixSymbol? op args.length).isSome = true ∨ isBareAtom op.toList = true) ∧ AllPlain args
  | .unify lhs rhs => Plain lhs ∧ Plain rhs
  | .choice condition yes no => Plain condition ∧ Plain yes ∧ Plain no
  | .not e => Plain e
  | .ref _ => False

def AllPlain : List Expr → Prop
  | [] => True
  | e :: rest => Plain e ∧ AllPlain rest

end

end Expr

theorem Phrase.sound_call {op : String} {args : List Phrase} (h : AllSound args)
    (named : (infixSymbol? op args.length).isSome = true ∨ isBareAtom op.toList = true) :
    (call op args).Sound := by
  rcases call_cases op args with ⟨symbol, a, b, rfl, found, eq⟩ | ⟨none, eq⟩
  · rw [eq]
    exact ⟨mem_symbols found, h.1, h.2.1⟩
  · rw [eq]
    refine ⟨named.elim (fun some => ?_) Piece.isWord_of_isBareAtom, h⟩
    rw [none] at some
    cases some

namespace Writer

variable {w : Writer}

mutual

/-- Plain expressions have sound phrases. -/
theorem sound_of_phrase : ∀ {e : Expr} {p : Phrase}, e.Plain → w.phrase e = .ok p → p.Sound
  | .var v, p, _, h => by
    obtain ⟨t, named, rfl⟩ := map_eq_ok.1 h
    exact Piece.isWord_of_isVariable (Namer.isVariable_of_render named)
  | .const c, p, _, h => by
    obtain ⟨t, written, rfl⟩ := map_eq_ok.1 h
    exact Piece.isWord_of_toTerm written
  | .call op args, p, ⟨named, plain⟩, h => by
    obtain ⟨ps, written, rfl⟩ := map_eq_ok.1 h
    rw [← length_phrases written] at named
    exact Phrase.sound_call (sound_of_phrases plain written) named
  | .unify lhs rhs, p, ⟨pl, pr⟩, h => by
    obtain ⟨l, left, h⟩ := bind_eq_ok.1 h
    obtain ⟨r, right, h⟩ := bind_eq_ok.1 h
    cases h
    exact ⟨sound_of_phrase pl left, sound_of_phrase pr right⟩
  | .choice condition yes no, p, ⟨pc, py, pn⟩, h => by
    obtain ⟨c, first, h⟩ := bind_eq_ok.1 h
    obtain ⟨y, second, h⟩ := bind_eq_ok.1 h
    obtain ⟨n, third, h⟩ := bind_eq_ok.1 h
    cases h
    exact ⟨sound_of_phrase pc first, sound_of_phrase py second, sound_of_phrase pn third⟩
  | .not e, p, plain, h => by
    obtain ⟨q, inner, rfl⟩ := map_eq_ok.1 h
    have sound : q.Sound := sound_of_phrase (e := e) plain inner
    exact sound

theorem sound_of_phrases : ∀ {args : List Expr} {ps : List Phrase}, Expr.AllPlain args →
    w.phrases args = .ok ps → Phrase.AllSound ps
  | [], ps, _, h => by
    cases h
    trivial
  | e :: rest, ps, ⟨plain, plainRest⟩, h => by
    obtain ⟨p, first, h⟩ := bind_eq_ok.1 h
    obtain ⟨others, written, h⟩ := bind_eq_ok.1 h
    cases h
    exact ⟨sound_of_phrase plain first, sound_of_phrases plainRest written⟩

end

/-- **Expressions with one text have the same pieces**, however their choices are written and their
variables named; and they have the same tree of operators, if no argument of an operator is an
equation without parentheses around it. -/
theorem expr_unambiguous (bare : w.context.IsBare) {e e' : Expr} (plain : e.Plain)
    (plain' : e'.Plain) {t : String} (written : w.expr e = .ok t) (written' : w.expr e' = .ok t) :
    ∃ p p', w.phrase e = .ok p ∧ w.phrase e' = .ok p' ∧ p.layout w.style = p'.layout w.style ∧
      (p.Grouped → p'.Grouped → p.tree = p'.tree) := by
  rw [expr_eq bare] at written written'
  obtain ⟨p, hp, text⟩ := map_eq_ok.1 written
  obtain ⟨p', hp', text'⟩ := map_eq_ok.1 written'
  have sound := sound_of_phrase plain hp
  have sound' := sound_of_phrase plain' hp'
  have pieces := Phrase.layout_eq_of_text_eq sound sound' (text.trans text'.symm)
  refine ⟨p, p', hp, hp', pieces, fun grouped grouped' => ?_⟩
  exact Phrase.tree_eq_of_layout_eq sound sound' grouped grouped' pieces

/-! ### Equations of `X` and `Y` -/

/-- A writer of expressions in Prolog. -/
def prolog : Writer := .plain .empty "prolog" .arrow

def x : Expr := .var ⟨"X", none⟩

def y : Expr := .var ⟨"Y", none⟩

def one : Expr := .const ⟨.int 1, none⟩

/-- An equation with one added to it, and an equation with a sum, are written the same way. -/
theorem expr_ambiguous :
    ∃ e e' : Expr, e.Plain ∧ e'.Plain ∧ prolog.context.IsBare ∧
      prolog.expr e = .ok "X = Y + 1" ∧ prolog.expr e' = .ok "X = Y + 1" ∧
      ∃ p p', prolog.phrase e = .ok p ∧ prolog.phrase e' = .ok p' ∧ p.tree ≠ p'.tree := by
  refine ⟨.call "add" [.unify x y, one], .unify x (.call "add" [y, one]), ?_, ?_, ⟨rfl, rfl⟩,
    by decide +kernel, by decide +kernel, .between "+" (.unify (.var "X") (.var "Y")) (.word "1"),
    .unify (.var "X") (.between "+" (.var "Y") (.word "1")), ?_, ?_, ?_⟩
  · exact ⟨.inl (by decide), ⟨trivial, trivial⟩, trivial, trivial⟩
  · exact ⟨trivial, .inl (by decide), trivial, trivial, trivial⟩
  · rfl
  · rfl
  · intro same
    obtain ⟨symbol, -⟩ := OperatorTree.operator.inj same
    exact absurd symbol (by decide)

theorem expr_unambiguous_equation :
    prolog.context.IsBare ∧ (Expr.unify x y).Plain ∧ (Expr.call "eq" [x, y]).Plain ∧
    prolog.expr (.unify x y) = .ok "X = Y" ∧ prolog.expr (.call "eq" [x, y]) = .ok "X = Y" ∧
    ∃ p p', prolog.phrase (.unify x y) = .ok p ∧ prolog.phrase (.call "eq" [x, y]) = .ok p' ∧
      p ≠ p' ∧ p.tree = p'.tree := by
  have bare : prolog.context.IsBare := ⟨rfl, rfl⟩
  have plain : (Expr.unify x y).Plain := ⟨trivial, trivial⟩
  have plain' : (Expr.call "eq" [x, y]).Plain := ⟨.inl (by decide), trivial, trivial, trivial⟩
  have written : prolog.expr (.unify x y) = .ok "X = Y" := by decide +kernel
  have written' : prolog.expr (.call "eq" [x, y]) = .ok "X = Y" := by decide +kernel
  refine ⟨bare, plain, plain', written, written', ?_⟩
  obtain ⟨p, p', hp, hp', -, same⟩ := expr_unambiguous bare plain plain' written written'
  obtain rfl : .unify (.var "X") (.var "Y") = p := Except.ok.inj hp
  obtain rfl : .between "=" (.var "X") (.var "Y") = p' := Except.ok.inj hp'
  refine ⟨_, _, hp, hp', nofun, same ?_ ?_⟩
  · exact ⟨rfl, rfl, trivial, trivial⟩
  · exact ⟨rfl, rfl, trivial, trivial⟩

end Writer

end Clausal
