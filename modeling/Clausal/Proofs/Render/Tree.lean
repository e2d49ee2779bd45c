import Clausal.Proofs.Render.Layout

/-!
# The operators of a phrase

Main statement: `Phrase.tree_eq_of_layout_eq`. Sound phrases with the same pieces have the same tree
of operators, if every equation that is an argument of an operator stands in parentheses
(`Phrase.Grouped`). The operator that a phrase splits at is the only one outside of all parentheses,
or the only `=` there (`Phrase.Splits`).
-/

namespace Clausal

/-- The operators of an expression, over the tokens that it ends in. -/
inductive OperatorTree
  | leaf (token : String)
  | operator (symbol : String) (lhs rhs : OperatorTree)
  | functor (name : String) (args : List OperatorTree)
  | choice (condition yes no : OperatorTree)
  | not (e : OperatorTree)

namespace Phrase

mutual

def tree : Phrase → OperatorTree
  | .var t | .word t | .apply t [] => .leaf t
  | .unify lhs rhs => .operator "=" (tree lhs) (tree rhs)
  | .between symbol lhs rhs => .operator symbol (tree lhs) (tree rhs)
  | .apply name (a :: rest) => .functor name (trees (a :: rest))
  | .choice condition yes no => .choice (tree condition) (tree yes) (tree no)
  | .not e | .negated e => .not (tree e)

def trees : List Phrase → List OperatorTree
  | [] => []
  | p :: rest => tree p :: trees rest

end

/-- Whether a phrase is an equation that never stands in parentheses. -/
def isUnify : Phrase → Bool
  | .unify .. => true
  | _ => false

/-- Whether a phrase is an equation. -/
def isEquation : Phrase → Bool
  | .unify .. => true
  | .between symbol .. => symbol == "="
  | _ => false

mutual

/-- No argument of an operator is an equation without parentheses around it. -/
def Grouped : Phrase → Prop
  | .var _ | .word _ => True
  | .unify lhs rhs =>
    lhs.isEquation = false ∧ rhs.isEquation = false ∧ Grouped lhs ∧ Grouped rhs
  | .between _ lhs rhs => lhs.isUnify = false ∧ rhs.isUnify = false ∧ Grouped lhs ∧ Grouped rhs
  | .apply _ args => AllGrouped args
  | .choice condition yes no => Grouped condition ∧ Grouped yes ∧ Grouped no
  | .not e | .negated e => Grouped e

def AllGrouped : List Phrase → Prop
  | [] => True
  | p :: rest => Grouped p ∧ AllGrouped rest

end

variable {style : ChoiceStyle}

/-! ### Operators outside of all parentheses -/

/-- What stands in a sound phrase outside of all parentheses: no comma, and no operator but those
that are written between arguments. -/
def Plain : Piece → Prop
  | .operator symbol => symbol ∈ symbols
  | .comma => False
  | .word _ | .negation | .group _ => True

theorem plain_part {needed : Bool} {pieces : List Piece} (h : ∀ x ∈ pieces, Plain x) :
    ∀ x ∈ part needed pieces, Plain x := by
  cases needed with
  | true => exact List.forall_mem_singleton.2 trivial
  | false => exact h

theorem plain_of_mem_layout : ∀ {p : Phrase}, p.Sound → ∀ x ∈ layout style p, Plain x
  | .var _, _ | .word _, _ | .apply _ [], _ => List.forall_mem_singleton.2 trivial
  | .unify lhs rhs, ⟨hl, hr⟩ => by
    have equals : Plain (.operator "=") := (by decide : "=" ∈ symbols)
    refine List.forall_mem_append.2 ⟨plain_of_mem_layout hl, ?_⟩
    exact List.forall_mem_cons.2 ⟨equals, plain_of_mem_layout hr⟩
  | .between symbol lhs rhs, ⟨known, hl, hr⟩ => by
    refine List.forall_mem_append.2 ⟨plain_part (plain_of_mem_layout hl), ?_⟩
    exact List.forall_mem_cons.2 ⟨known, plain_part (plain_of_mem_layout hr)⟩
  | .apply _ (_ :: _), _ | .not _, _ =>
    List.forall_mem_cons.2 ⟨trivial, List.forall_mem_singleton.2 trivial⟩
  | .choice condition yes no, _ => by
    cases style <;> exact List.forall_mem_singleton.2 trivial

theorem comma_not_mem_layout {p : Phrase} (h : p.Sound) : .comma ∉ layout style p :=
  plain_of_mem_layout h _

/-- The operators of a choice are not among those of sound phrases. -/
theorem arrow_not_mem_layout {p : Phrase} (h : p.Sound) : .operator "->" ∉ layout style p := by
  intro mem
  have known : "->" ∈ symbols := plain_of_mem_layout h _ mem
  exact absurd known (by decide)

theorem semicolon_not_mem_layout {p : Phrase} (h : p.Sound) : .operator ";" ∉ layout style p := by
  intro mem
  have known : ";" ∈ symbols := plain_of_mem_layout h _ mem
  exact absurd known (by decide)

/-- A phrase that is no operator has its operators in parentheses. -/
theorem operator_not_mem_layout {p : Phrase} (h : p.Sound) (unify : p.isUnify = false)
    (between : p.isBetween = false) (symbol : String) : .operator symbol ∉ layout style p := by
  cases p with
  | unify => cases unify
  | between => cases between
  | choice => cases style <;> simp [layout, choiceLayout]
  | apply name args => cases args <;> simp [layout]
  | var | word | not => simp [layout]
  | negated => exact absurd h id

theorem operator_not_mem_part {p : Phrase} (h : p.Sound) (unify : p.isUnify = false)
    (symbol : String) : .operator symbol ∉ part p.isBetween (layout style p) := by
  cases between : p.isBetween with
  | true => simp [part]
  | false => exact operator_not_mem_layout h unify between symbol

theorem equation_not_mem_layout {p : Phrase} (h : p.Sound) (grouped : p.Grouped)
    (other : p.isEquation = false) : .operator "=" ∉ layout style p := by
  cases p with
  | unify => cases other
  | between symbol lhs rhs =>
    intro mem
    rcases List.mem_append.1 mem with mem | mem
    · exact operator_not_mem_part h.2.1 grouped.1 _ mem
    · rcases List.mem_cons.1 mem with eq | mem
      · cases eq
        cases other
      · exact operator_not_mem_part h.2.2 grouped.2.1 _ mem
  | choice | apply | var | word | not => exact operator_not_mem_layout h rfl rfl _
  | negated => exact absurd h id

/-- A phrase is an operator between two parts, each in parentheses or not. Outside of all parentheses
a part has no operator, or, if the phrase is an equation, none but others than `=`. -/
structure Splits (style : ChoiceStyle) (p : Phrase) (symbol : String) (l : Bool) (lhs : Phrase)
    (r : Bool) (rhs : Phrase) : Prop where
  layout : p.layout style =
    part l (lhs.layout style) ++ .operator symbol :: part r (rhs.layout style)
  tree : p.tree = .operator symbol lhs.tree rhs.tree
  operators : ∀ s, .operator s ∈ part l (lhs.layout style) ∨ .operator s ∈ part r (rhs.layout style) →
    symbol = "=" ∧ s ≠ "="
  sound : lhs.Sound ∧ rhs.Sound
  grouped : lhs.Grouped ∧ rhs.Grouped

theorem splits_unify {lhs rhs : Phrase} (h : (Phrase.unify lhs rhs).Sound)
    (grouped : (Phrase.unify lhs rhs).Grouped) :
    Splits style (.unify lhs rhs) "=" false lhs false rhs where
  layout := rfl
  tree := rfl
  operators s mem := by
    refine ⟨rfl, fun equation => ?_⟩
    subst equation
    rcases mem with mem | mem
    · exact equation_not_mem_layout h.1 grouped.2.2.1 grouped.1 mem
    · exact equation_not_mem_layout h.2 grouped.2.2.2 grouped.2.1 mem
  sound := h
  grouped := grouped.2.2

theorem splits_between {symbol : String} {lhs rhs : Phrase}
    (h : (Phrase.between symbol lhs rhs).Sound) (grouped : (Phrase.between symbol lhs rhs).Grouped) :
    Splits style (.between symbol lhs rhs) symbol lhs.isBetween lhs rhs.isBetween rhs where
  layout := rfl
  tree := rfl
  operators s mem := by
    rcases mem with mem | mem
    · exact absurd mem (operator_not_mem_part h.2.1 grouped.1 s)
    · exact absurd mem (operator_not_mem_part h.2.2 grouped.2.1 s)
  sound := h.2
  grouped := grouped.2.2

/-- A phrase with an operator outside of all parentheses splits at one. -/
theorem exists_splits {p : Phrase} (h : p.Sound) (grouped : p.Grouped) {symbol : String}
    (mem : .operator symbol ∈ layout style p) :
    ∃ symbol l lhs r rhs, Splits style p symbol l lhs r rhs := by
  cases p with
  | unify => exact ⟨_, _, _, _, _, splits_unify h grouped⟩
  | between => exact ⟨_, _, _, _, _, splits_between h grouped⟩
  | choice | apply | var | word | not => exact absurd mem (operator_not_mem_layout h rfl rfl _)
  | negated => exact absurd h id

theorem Splits.mem_equation_iff {p : Phrase} {symbol : String} {l r : Bool} {lhs rhs : Phrase}
    (h : Splits style p symbol l lhs r rhs) : .operator "=" ∈ p.layout style ↔ symbol = "=" := by
  rw [h.layout, List.mem_append, List.mem_cons]
  constructor
  · rintro (mem | eq | mem)
    · exact (h.operators _ (.inl mem)).1
    · exact (Piece.operator.inj eq).symm
    · exact (h.operators _ (.inr mem)).1
  · rintro rfl
    exact .inr (.inl rfl)

/-- Phrases with the same pieces split at the same operator. -/
theorem Splits.inj {p p' : Phrase} {symbol symbol' : String} {l r l' r' : Bool}
    {lhs rhs lhs' rhs' : Phrase} (h : Splits style p symbol l lhs r rhs)
    (h' : Splits style p' symbol' l' lhs' r' rhs') (eq : p.layout style = p'.layout style) :
    part l (lhs.layout style) = part l' (lhs'.layout style) ∧ symbol = symbol' ∧
      part r (rhs.layout style) = part r' (rhs'.layout style) := by
  have equations : symbol = "=" ↔ symbol' = "=" := by
    rw [← h.mem_equation_iff, ← h'.mem_equation_iff, eq]
  rw [h.layout, h'.layout] at eq
  by_cases equation : symbol = "="
  · -- the parts may have operators of their own, but no further equation
    have equation' := equations.1 equation
    subst equation equation'
    obtain ⟨left, -, right⟩ := Piece.append_cons_inj (P := (· = .operator "=")) rfl rfl
      (fun x hx same => (h.operators _ (.inl (same ▸ hx))).2 rfl)
      (fun x hx same => (h'.operators _ (.inl (same ▸ hx))).2 rfl) eq
    exact ⟨left, rfl, right⟩
  · obtain ⟨left, same, right⟩ := Piece.append_cons_inj (P := fun x => ∃ s, x = .operator s)
      ⟨_, rfl⟩ ⟨_, rfl⟩ (fun x hx ⟨s, same⟩ => equation (h.operators s (.inl (same ▸ hx))).1)
      (fun x hx ⟨s, same⟩ =>
        equation (equations.2 (h'.operators s (.inl (same ▸ hx))).1)) eq
    exact ⟨left, Piece.operator.inj same, right⟩

/-! ### Phrases by their pieces -/

/-- No sound phrase is written as another one in parentheses: what is in the parentheses of a choice
has operators of its own. -/
theorem layout_ne_group {p q : Phrase} (hp : p.Sound) (hq : q.Sound) :
    p.layout style ≠ [.group (q.layout style)] := by
  intro eq
  have semicolon : .operator ";" ∉ q.layout style := semicolon_not_mem_layout hq
  have alone (symbol : String) : Piece.operator symbol ∉ p.layout style := by
    rw [eq]
    simp
  cases p with
  | choice =>
    cases style <;> exact semicolon (Piece.group.inj (List.head_eq_of_cons_eq eq) ▸ by simp)
  | apply name args => cases args <;> cases eq
  | var | word | not => cases eq
  | unify lhs rhs => exact alone "=" (by simp [layout])
  | between symbol lhs rhs => exact alone symbol (by simp [layout])
  | negated => exact absurd hp id

theorem layout_eq_of_part_eq {p q : Phrase} (hp : p.Sound) (hq : q.Sound) {a b : Bool}
    (eq : part a (p.layout style) = part b (q.layout style)) : p.layout style = q.layout style := by
  cases a <;> cases b
  case false.false => exact eq
  case false.true => exact absurd eq (layout_ne_group hp hq)
  case true.false => exact absurd eq.symm (layout_ne_group hq hp)
  case true.true => exact Piece.group.inj (List.head_eq_of_cons_eq eq)

/-- Phrases that are cut off at a piece that neither has. -/
theorem cut_inj {p q : Phrase} {x : Piece} (hp : x ∉ p.layout style) (hq : x ∉ q.layout style)
    {ps qs : List Piece} (eq : p.layout style ++ x :: ps = q.layout style ++ x :: qs) :
    p.layout style = q.layout style ∧ ps = qs := by
  obtain ⟨same, -, later⟩ := Piece.append_cons_inj (P := (· = x)) rfl rfl
    (fun y hy eq => hp (eq ▸ hy)) (fun y hy eq => hq (eq ▸ hy)) eq
  exact ⟨same, later⟩

/-- The parts of a choice are known from its pieces. -/
theorem choiceLayout_inj {c y n c' y' n' : Phrase} (hc : c.Sound) (hc' : c'.Sound) (hy : y.Sound)
    (hy' : y'.Sound)
    (eq : choiceLayout style (c.layout style) (y.layout style) (n.layout style) =
      choiceLayout style (c'.layout style) (y'.layout style) (n'.layout style)) :
    c.layout style = c'.layout style ∧ y.layout style = y'.layout style ∧
      n.layout style = n'.layout style := by
  cases style with
  | disjunction =>
    obtain ⟨first, second⟩ := List.cons.inj (Piece.group.inj (List.head_eq_of_cons_eq eq))
    obtain ⟨condition, yes⟩ := cut_inj (comma_not_mem_layout hc) (comma_not_mem_layout hc')
      (Piece.group.inj first)
    have second := Piece.group.inj (List.head_eq_of_cons_eq (List.tail_eq_of_cons_eq second))
    have no := List.tail_eq_of_cons_eq (List.tail_eq_of_cons_eq (List.tail_eq_of_cons_eq second))
    exact ⟨condition, yes, no⟩
  | arrow =>
    -- no part has an arrow or semicolon outside of its own parentheses
    obtain ⟨condition, rest⟩ := cut_inj (arrow_not_mem_layout hc) (arrow_not_mem_layout hc')
      (Piece.group.inj (List.head_eq_of_cons_eq eq))
    obtain ⟨yes, no⟩ := cut_inj (semicolon_not_mem_layout hy) (semicolon_not_mem_layout hy') rest
    exact ⟨condition, yes, no⟩

theorem choiceLayout_eq (style : ChoiceStyle) (cs ys ns : List Piece) :
    ∃ inner, choiceLayout style cs ys ns = [.group inner] := by
  cases style <;> exact ⟨_, rfl⟩

/-- A phrase without an operator outside of all parentheses, by its pieces. -/
theorem shape_of_layout {q : Phrase} (h : q.Sound) {pieces : List Piece}
    (none : ∀ s, .operator s ∉ pieces) (eq : q.layout style = pieces) :
    (∃ t, pieces = [.word t] ∧ q.tree = .leaf t) ∨
    (∃ name a rest, pieces = [.word name, .group (layouts style (a :: rest))] ∧
      q = .apply name (a :: rest)) ∨
    (∃ c y n inner, pieces = [.group inner] ∧ q = .choice c y n) ∨
    ∃ e, pieces = [.negation, .group (layout style e)] ∧ q = .not e := by
  subst eq
  cases q with
  | var t | word t => exact .inl ⟨t, rfl, rfl⟩
  | apply name args =>
    cases args with
    | nil => exact .inl ⟨name, rfl, rfl⟩
    | cons a rest => exact .inr (.inl ⟨name, a, rest, rfl, rfl⟩)
  | choice c y n =>
    obtain ⟨inner, shape⟩ := choiceLayout_eq style _ _ _
    exact .inr (.inr (.inl ⟨c, y, n, inner, shape, rfl⟩))
  | not e => exact .inr (.inr (.inr ⟨e, rfl, rfl⟩))
  | unify => exact absurd (by simp [layout]) (none "=")
  | between symbol => exact absurd (by simp [layout]) (none symbol)
  | negated => exact absurd h id

theorem tree_of_layout_word {q : Phrase} (h : q.Sound) {t : String}
    (eq : q.layout style = [.word t]) : q.tree = .leaf t := by
  rcases shape_of_layout h (by simp) eq with
    ⟨t', same, tree⟩ | ⟨_, _, _, same, _⟩ | ⟨_, _, _, _, same, _⟩ | ⟨_, same, _⟩ <;> cases same
  exact tree

theorem exists_apply_of_layout {q : Phrase} (h : q.Sound) {name : String} {inner : List Piece}
    (eq : q.layout style = [.word name, .group inner]) :
    ∃ a rest, q = .apply name (a :: rest) ∧ layouts style (a :: rest) = inner := by
  rcases shape_of_layout h (by simp) eq with
    ⟨_, same, _⟩ | ⟨_, a, rest, same, rfl⟩ | ⟨_, _, _, _, same, _⟩ | ⟨_, same, _⟩ <;> cases same
  exact ⟨a, rest, rfl, rfl⟩

theorem exists_choice_of_layout {q : Phrase} (h : q.Sound) {inner : List Piece}
    (eq : q.layout style = [.group inner]) : ∃ c y n, q = .choice c y n := by
  rcases shape_of_layout h (by simp) eq with
    ⟨_, same, _⟩ | ⟨_, _, _, same, _⟩ | ⟨c, y, n, _, same, rfl⟩ | ⟨_, same, _⟩ <;> cases same
  exact ⟨c, y, n, rfl⟩

theorem exists_not_of_layout {q : Phrase} (h : q.Sound) {inner : List Piece}
    (eq : q.layout style = [.negation, .group inner]) :
    ∃ e, q = .not e ∧ layout style e = inner := by
  rcases shape_of_layout h (by simp) eq with
    ⟨_, same, _⟩ | ⟨_, _, _, same, _⟩ | ⟨_, _, _, _, same, _⟩ | ⟨e, same, rfl⟩ <;> cases same
  exact ⟨e, rfl, rfl⟩

theorem layouts_ne_nil (p : Phrase) (rest : List Phrase) : layouts style (p :: rest) ≠ [] := by
  cases rest with
  | nil =>
    cases p with
    | apply name args => cases args <;> exact nofun
    | choice => cases style <;> exact nofun
    | unify | between => exact List.append_ne_nil_of_right_ne_nil _ nofun
    | var | word | not | negated => exact nofun
  | cons q rest => exact List.append_ne_nil_of_right_ne_nil _ nofun

/-! ### Trees -/

mutual

/-- Sound phrases with the same pieces have the same tree of operators, if their equations are
grouped; by induction on the first of them. -/
theorem tree_eq_of_layout_eq : ∀ {p q : Phrase}, p.Sound → q.Sound → p.Grouped → q.Grouped →
    p.layout style = q.layout style → p.tree = q.tree
  | .unify lhs rhs, q, hp, hq, gp, gq, eq => by
    have h : Splits style _ _ _ _ _ _ := splits_unify hp gp
    -- the equation is outside of all parentheses, so the other phrase splits at it too
    obtain ⟨symbol, l, lhs', r, rhs', h'⟩ := exists_splits hq gq (eq ▸ h.mem_equation_iff.2 rfl)
    obtain ⟨left, rfl, right⟩ := h.inj h' eq
    rw [h.tree, h'.tree,
      tree_eq_of_layout_eq hp.1 h'.sound.1 gp.2.2.1 h'.grouped.1
        (layout_eq_of_part_eq hp.1 h'.sound.1 left),
      tree_eq_of_layout_eq hp.2 h'.sound.2 gp.2.2.2 h'.grouped.2
        (layout_eq_of_part_eq hp.2 h'.sound.2 right)]
  | .between symbol lhs rhs, q, hp, hq, gp, gq, eq => by
    have h : Splits style _ _ _ _ _ _ := splits_between hp gp
    have mem : .operator symbol ∈ q.layout style := by
      rw [← eq, h.layout]
      simp
    obtain ⟨symbol', l, lhs', r, rhs', h'⟩ := exists_splits hq gq mem
    obtain ⟨left, rfl, right⟩ := h.inj h' eq
    rw [h.tree, h'.tree,
      tree_eq_of_layout_eq hp.2.1 h'.sound.1 gp.2.2.1 h'.grouped.1
        (layout_eq_of_part_eq hp.2.1 h'.sound.1 left),
      tree_eq_of_layout_eq hp.2.2 h'.sound.2 gp.2.2.2 h'.grouped.2
        (layout_eq_of_part_eq hp.2.2 h'.sound.2 right)]
  | .var t, q, _, hq, _, _, eq | .word t, q, _, hq, _, _, eq | .apply t [], q, _, hq, _, _, eq =>
    (tree_of_layout_word hq eq.symm).symm
  | .apply name (a :: rest), q, hp, hq, gp, gq, eq => by
    obtain ⟨a', rest', rfl, args⟩ := exists_apply_of_layout hq eq.symm
    rw [tree, tree, trees_eq_of_layouts_eq hp.2 hq.2 gp gq args.symm]
  | .choice condition yes no, q, hp, hq, gp, gq, eq => by
    obtain ⟨inner, shape⟩ := choiceLayout_eq style _ _ _
    obtain ⟨c, y, n, rfl⟩ := exists_choice_of_layout hq (eq.symm.trans shape)
    obtain ⟨first, second, third⟩ := choiceLayout_inj hp.1 hq.1 hp.2.1 hq.2.1 eq
    rw [tree, tree, tree_eq_of_layout_eq hp.1 hq.1 gp.1 gq.1 first,
      tree_eq_of_layout_eq hp.2.1 hq.2.1 gp.2.1 gq.2.1 second,
      tree_eq_of_layout_eq hp.2.2 hq.2.2 gp.2.2 gq.2.2 third]
  | .not e, q, hp, hq, gp, gq, eq => by
    obtain ⟨e', rfl, inner⟩ := exists_not_of_layout hq eq.symm
    rw [tree, tree, tree_eq_of_layout_eq (p := e) (q := e') hp hq gp gq inner.symm]

theorem trees_eq_of_layouts_eq : ∀ {ps qs : List Phrase}, AllSound ps → AllSound qs →
    AllGrouped ps → AllGrouped qs → layouts style ps = layouts style qs → trees ps = trees qs
  | [], [], _, _, _, _, _ => rfl
  | [], q :: rest, _, _, _, _, eq => absurd eq.symm (layouts_ne_nil q rest)
  | p :: rest, [], _, _, _, _, eq => absurd eq (layouts_ne_nil p rest)
  | [p], [q], hp, hq, gp, gq, eq => by
    have same := tree_eq_of_layout_eq hp.1 hq.1 gp.1 gq.1 eq
    exact congrArg (fun t => [t]) same
  | [p], q :: q' :: rest, hp, _, _, _, eq => by
    have single : layout style p = layouts style (q :: q' :: rest) := eq
    -- two arguments have a comma between them, one alone has none outside of parentheses
    have comma : .comma ∈ layout style p := by
      rw [single]
      simp [layouts]
    exact absurd comma (comma_not_mem_layout hp.1)
  | p :: p' :: rest, [q], _, hq, _, _, eq => by
    have single : layout style q = layouts style (p :: p' :: rest) := eq.symm
    have comma : .comma ∈ layout style q := by
      rw [single]
      simp [layouts]
    exact absurd comma (comma_not_mem_layout hq.1)
  | p :: p' :: rest, q :: q' :: rest', hp, hq, gp, gq, eq => by
    obtain ⟨first, later⟩ := cut_inj (comma_not_mem_layout hp.1) (comma_not_mem_layout hq.1) eq
    have same := tree_eq_of_layout_eq hp.1 hq.1 gp.1 gq.1 first
    exact congrArg₂ List.cons same (trees_eq_of_layouts_eq hp.2 hq.2 gp.2 gq.2 later)

end

end Phrase

end Clausal
