import Clausal.Proofs.Number.UnitInterval
import Clausal.Proofs.Render.Functors
import Clausal.Proofs.Render.Independent

/-!
# Where Prolog and ProbLog agree

Main statement: `Dialect.dialects_agree`. Only a choice is written in another way in another dialect
(`Writer.body_inDialect`), so without choices a clause or fact of ProbLog is that of Prolog with its
probability in front.
-/

namespace Clausal

mutual

/-- Whether there is no choice in an expression, at any depth. -/
def Expr.isChoiceFree : Expr → Bool
  | .var _ | .const _ | .ref _ => true
  | .unify lhs rhs => lhs.isChoiceFree && rhs.isChoiceFree
  | .call _ args => Expr.allChoiceFree args
  | .choice _ _ _ => false
  | .not e => e.isChoiceFree

def Expr.allChoiceFree : List Expr → Bool
  | [] => true
  | e :: rest => e.isChoiceFree && Expr.allChoiceFree rest

end

def Literal.isChoiceFree : Literal → Bool
  | .ref _ => true
  | .expr e => e.isChoiceFree

def Rule.IsChoiceFree (r : Rule) : Prop :=
  ∀ c ∈ r.conditions, ∀ l ∈ c.literals, l.isChoiceFree = true

/-! ### Writers of different dialects -/

namespace Writer

/-- A writer for another dialect. -/
def inDialect (w : Writer) (d : Dialect) : Writer :=
  { w with dialect := d.name, style := d.choiceStyle }

variable {w : Writer} {d : Dialect}

theorem handler?_bare (bare : w.context.IsBare) (key : SpecKey) : w.handler? key = none := by
  rw [handler?, bare.handlers]
  rfl

theorem mapping?_bare (bare : w.context.IsBare) (key : SpecKey) : w.mapping? key = none := by
  rw [mapping?, bare.library]
  rfl

theorem application_inDialect (bare : w.context.IsBare) (op : String) (args : List String) :
    (w.inDialect d).application op args = w.application op args := by
  have bare' : (w.inDialect d).context.IsBare := bare
  unfold application
  simp only [handler?_bare bare, handler?_bare bare', mapping?_bare bare, mapping?_bare bare']

theorem refAtom_inDialect (bare : w.context.IsBare) (r : Ref) :
    (w.inDialect d).refAtom r = w.refAtom r := by
  have library : (w.inDialect d).context.library = none := bare.library
  rw [refAtom, refAtom, resolve, resolve, library, bare.library]
  rfl

mutual

/-- An expression without choices is the same in all dialects. -/
theorem expr_inDialect (bare : w.context.IsBare) :
    ∀ {e : Expr}, e.isChoiceFree = true → (w.inDialect d).expr e = w.expr e
  | .var v, _ => rfl
  | .const c, _ => rfl
  | .ref r, _ => by rw [expr, expr, refAtom_inDialect bare]
  | .unify lhs rhs, free => by
    obtain ⟨left, right⟩ := Bool.and_eq_true_iff.1 free
    rw [expr, expr, expr_inDialect bare left, expr_inDialect bare right]
  | .call op args, free => by
    rw [expr, expr, exprs_inDialect bare free]
    simp only [application_inDialect bare]
  | .not e, free => by rw [expr, expr, expr_inDialect (e := e) bare free]

theorem exprs_inDialect (bare : w.context.IsBare) {around : Bool} :
    ∀ {es : List Expr}, Expr.allChoiceFree es = true →
      (w.inDialect d).exprs around es = w.exprs around es
  | [], _ => rfl
  | e :: rest, free => by
    obtain ⟨first, later⟩ := Bool.and_eq_true_iff.1 free
    rw [exprs, exprs, expr_inDialect bare first, exprs_inDialect bare later]

end

theorem literal_inDialect (bare : w.context.IsBare) {l : Literal} (free : l.isChoiceFree = true) :
    (w.inDialect d).literal l = w.literal l := by
  cases l with
  | ref r => rw [literal, literal, refAtom_inDialect bare]
  | expr e => exact expr_inDialect bare free

theorem literals_inDialect (bare : w.context.IsBare) {literals : List Literal}
    (free : ∀ l ∈ literals, l.isChoiceFree = true) :
    literals.mapM (w.inDialect d).literal = literals.mapM w.literal := by
  induction literals with
  | nil => rw [List.mapM_nil, List.mapM_nil]
  | cons l rest ih =>
    obtain ⟨first, later⟩ := List.forall_mem_cons.1 free
    rw [List.mapM_cons, List.mapM_cons, literal_inDialect bare first, ih later]

/-- A body without choices is the same in all dialects; what fails in one fails in all, and for the
same reason. -/
theorem body_inDialect (bare : w.context.IsBare) {c : Condition}
    (free : ∀ l ∈ c.literals, l.isChoiceFree = true) (s : Schema) (index : Nat) :
    (w.inDialect d).body s index c = w.body s index c := by
  rw [body, body, literals_inDialect bare free]
  rfl

end Writer

/-- What is written for a probability in range, or for a missing one where that may be. -/
theorem ProbabilityConfig.resolve_eq {config : ProbabilityConfig} (policy : config.missing ≠ .error)
    {prob : Option Binary64} (inRange : ∀ p, prob = some p → p.IsProbability) (default : Binary64)
    (context : String) :
    ∃ origin, config.resolve default prob context = .ok (prob.getD default, origin) := by
  unfold resolve
  cases prob with
  | some p =>
    have ok := (Binary64.inUnitInterval_iff p).2 (inRange p rfl)
    exact ⟨.declared, by simp only [checkRange, if_pos ok]; rfl⟩
  | none =>
    cases h : config.missing with
    | injectDefault | warnAndDefault => exact ⟨.default, rfl⟩
    | error => exact absurd h policy

namespace Dialect

/-- What ProbLog makes of a clause or fact of Prolog. -/
def annotated (default : Binary64) (prob : Option Binary64) (text : String) : String :=
  annotation (prob.getD default) ++ text

variable {w : Writer} {context : RenderContext}

/-! ### Clauses -/

/-- The clause of ProbLog is that of Prolog with its probability. -/
theorem problogClause_annotated (bare : w.context.IsBare)
    (policy : w.config.probability.missing ≠ .error) (quiet : w.config.comments = false)
    {c : Condition} (free : ∀ l ∈ c.literals, l.isChoiceFree = true)
    (inRange : ∀ p, c.prob = some p → p.IsProbability) (s : Schema) (head : String)
    (total index : Nat) :
    problogClause (w.inDialect .problog) s head total index c =
      List.map (annotated w.config.probability.defaultRule c.prob) <$>
        prologClause w s head index c := by
  have same : (w.inDialect .problog).config = w.config := rfl
  obtain ⟨origin, resolved⟩ := ProbabilityConfig.resolve_eq policy inRange
    w.config.probability.defaultRule s!"rule `{s.name}` condition {Text.decimal index}"
  rw [problogClause, prologClause, same, ProbabilityConfig.resolveRule, resolved, ok_bind,
    Writer.body_inDialect bare free, quiet]
  cases w.body s index c <;> rfl

/-- The clauses of ProbLog are those of Prolog with their probabilities. -/
theorem clauseLines_problog (bare : w.context.IsBare)
    (policy : w.config.probability.missing ≠ .error) (quiet : w.config.comments = false)
    (s : Schema) (head : String) (total : Nat) {conditions : List Condition}
    (free : ∀ c ∈ conditions, ∀ l ∈ c.literals, l.isChoiceFree = true)
    (inRange : ∀ c ∈ conditions, ∀ p, c.prob = some p → p.IsProbability) (index : Nat) :
    clauseLines (problogClause (w.inDialect .problog) s head total) index conditions =
      List.zipWith (fun c => annotated w.config.probability.defaultRule c.prob) conditions <$>
        clauseLines (prologClause w s head) index conditions := by
  induction conditions generalizing index with
  | nil => rfl
  | cons c rest ih =>
    obtain ⟨free, laterFree⟩ := List.forall_mem_cons.1 free
    obtain ⟨inRange, laterInRange⟩ := List.forall_mem_cons.1 inRange
    rw [clauseLines, clauseLines, problogClause_annotated bare policy quiet free inRange,
      ih laterFree laterInRange, prologClause]
    cases w.body s index c with
    | error e => rfl
    | ok body => cases clauseLines (prologClause w s head) (index + 1) rest <;> rfl

/-- The clauses that Prolog writes for conditions are those that it writes for each alone. -/
theorem forall₂_of_clauseLines {r : Rule} {head : String} {texts : List String}
    (hh : (Writer.forRule context prolog.name prolog.choiceStyle r).head r.head = .ok head)
    (h : clauseLines (prologClause (.forRule context prolog.name prolog.choiceStyle r) r.head head)
      0 r.conditions = .ok texts) :
    List.Forall₂ (fun c text => prolog.renderRule context (r.only c) = .ok text)
      r.conditions texts := by
  rcases clauseLines_cases (fun index c => conditionLines_eq (d := .prolog) (r := r) index c)
      (isLocal_notedClause .prolog _ r.head head) r.conditions 0 with
    ⟨clauses, written, eq⟩ | ⟨i, c, e, -, -, -, -, eq⟩
  · have each : List.Forall₂ (fun c clause =>
        prolog.renderRule context (r.only c) = .ok clause.text ∧ clause.noted = none)
        r.conditions clauses := by
      refine written.imp fun c clause each => ?_
      -- only the other dialect writes comments
      have none : clause.noted = none := by
        obtain ⟨body, -, made⟩ := bind_eq_ok.1 (each 0)
        cases made
        rfl
      refine ⟨?_, none⟩
      rw [renderRule_only rfl hh, each]
      show Except.ok (lines (clause.lines r.head 1 0)) = _
      rw [NotedClause.lines_of_none none]
      rfl
    obtain ⟨texts', only, same⟩ := NotedClause.linesFrom_of_none
      (P := fun c t => prolog.renderRule context (r.only c) = .ok t) each
    rw [same] at eq
    cases h.symm.trans eq
    exact only
  · cases h.symm.trans eq

/-! ### Facts -/

theorem factLine_annotated (policy : w.config.probability.missing ≠ .error) {r : Record}
    (inRange : ∀ p, r.prob = some p → p.IsProbability) (index : Nat) :
    problog.factLine (w.inDialect .problog) index r =
      annotated w.config.probability.defaultFact r.prob <$> prolog.factLine w index r := by
  obtain ⟨origin, resolved⟩ := ProbabilityConfig.resolve_eq policy inRange
    w.config.probability.defaultFact s!"fact {Text.decimal index}"
  have atom : (w.inDialect .problog).factAtom r = w.factAtom r := rfl
  have same : (w.inDialect .problog).config = w.config := rfl
  have plain : prolog.factLine w index r = (do return (← w.factAtom r) ++ ".") := rfl
  rw [plain, factLine, same, ProbabilityConfig.resolveFact, resolved, ok_bind, atom]
  cases w.factAtom r with
  | error e => rfl
  | ok atom => exact congrArg Except.ok (String.append_assoc ..)

/-- The lines of ProbLog are those of Prolog with their probabilities. -/
theorem factLines_problog (policy : w.config.probability.missing ≠ .error) {records : List Record}
    (inRange : ∀ r ∈ records, ∀ p, r.prob = some p → p.IsProbability) (index : Nat) :
    problog.factLines (w.inDialect .problog) index records =
      List.zipWith (fun r => annotated w.config.probability.defaultFact r.prob) records <$>
        prolog.factLines w index records := by
  induction records generalizing index with
  | nil => rfl
  | cons r rest ih =>
    obtain ⟨inRange, later⟩ := List.forall_mem_cons.1 inRange
    rw [factLines, factLines, factLine_annotated policy inRange, ih later]
    cases prolog.factLine w index r with
    | error e => rfl
    | ok line => cases prolog.factLines w (index + 1) rest <;> rfl

/-- The lines that Prolog writes for records are those that it writes for each alone. -/
theorem forall₂_of_prolog_factLines {records : List Record} {texts : List String}
    (h : prolog.factLines (.plain context prolog.name prolog.choiceStyle) 0 records = .ok texts) :
    List.Forall₂ (fun r text => prolog.renderFacts context [r] = .ok text) records texts := by
  refine forall₂_of_factLines (fun index r text line => ?_) h
  have line : prolog.factLine (.plain context prolog.name prolog.choiceStyle) 0 r = .ok text :=
    line
  show lines <$> (prolog.factLine (.plain context prolog.name prolog.choiceStyle) 0 r >>= _) = _
  rw [line]
  rfl

/-- **The dialects agree.** Where no probability can be missing and none is out of range, ProbLog
fails as Prolog does, or else it writes what Prolog writes with a probability in front: for a rule
without choices clause by clause, where no comments are wanted, and for facts line by line. -/
theorem dialects_agree (policy : context.config.probability.missing ≠ .error) :
    (∀ r : Rule, context.IsBare → context.config.comments = false → r.IsChoiceFree →
      (∀ c ∈ r.conditions, ∀ p, c.prob = some p → p.IsProbability) →
        (∃ e, prolog.renderRule context r = .error e ∧ problog.renderRule context r = .error e) ∨
        ∃ texts,
          List.Forall₂ (fun c text => prolog.renderRule context (r.only c) = .ok text)
            r.conditions texts ∧
          prolog.renderRule context r = .ok (lines texts) ∧
          problog.renderRule context r = .ok (lines (List.zipWith
            (fun c => annotated context.config.probability.defaultRule c.prob)
            r.conditions texts))) ∧
    ∀ records : List Record, (∀ r ∈ records, ∀ p, r.prob = some p → p.IsProbability) →
      (∃ e, prolog.renderFacts context records = .error e ∧
        problog.renderFacts context records = .error e) ∨
      ∃ texts,
        List.Forall₂ (fun r text => prolog.renderFacts context [r] = .ok text) records texts ∧
        prolog.renderFacts context records = .ok (lines texts) ∧
        problog.renderFacts context records = .ok (lines (List.zipWith
          (fun r => annotated context.config.probability.defaultFact r.prob) records texts)) := by
  constructor
  · intro r bare quiet free inRange
    let w := Writer.forRule context prolog.name prolog.choiceStyle r
    have other : Writer.forRule context problog.name problog.choiceStyle r =
      w.inDialect .problog := rfl
    -- a head does not depend on the dialect
    have head : (w.inDialect .problog).head r.head = w.head r.head := rfl
    rw [renderRule, renderRule, other, head]
    cases hh : w.head r.head with
    | error e => exact .inl ⟨e, rfl, rfl⟩
    | ok head =>
      have agree := clauseLines_problog (w := w) bare policy quiet r.head head r.conditions.length
        free inRange 0
      rw [ok_bind, ok_bind, agree]
      cases written : clauseLines (prologClause w r.head head) 0 r.conditions with
      | error e => exact .inl ⟨e, rfl, rfl⟩
      | ok texts => exact .inr ⟨texts, forall₂_of_clauseLines hh written, rfl, rfl⟩
  · intro records inRange
    let w := Writer.plain context prolog.name prolog.choiceStyle
    have agree := factLines_problog (w := w) policy inRange 0
    have other : Writer.plain context problog.name problog.choiceStyle =
      w.inDialect .problog := rfl
    have known : prolog.isStub = false ∧ problog.isStub = false := ⟨rfl, rfl⟩
    rw [renderFacts, renderFacts, other, known.1, known.2, agree]
    cases written : prolog.factLines w 0 records with
    | error e => exact .inl ⟨e, rfl, rfl⟩
    | ok texts => exact .inr ⟨texts, forall₂_of_prolog_factLines written, rfl, rfl⟩

end Dialect

/-! ### Who knows whom, without comments -/

/-- The context that knows who knows whom, where no comments are wanted. -/
def RenderContext.discreet : RenderContext :=
  { RenderContext.knowing with config := { RenderConfig.default with comments := false } }

namespace Dialect

theorem renderRule_discreet : prolog.renderRule .discreet .seniority =
    .ok ("knows(Sub, Obj, Since) :- Sub_number < Obj_number, Since = 1999, " ++
      "Sub = person(Sub_number), Obj = person(Obj_number).") :=
  renderRule_knowing

theorem renderFacts_discreet : prolog.renderFacts .discreet [.acquaintance] =
    .ok "knows(person(1), person(2), 1999)." :=
  renderFacts_knowing

theorem dialects_agree_discreet :
    RenderContext.discreet.config.probability.missing ≠ .error ∧
    RenderContext.discreet.IsBare ∧ RenderContext.discreet.config.comments = false ∧
    Rule.seniority.IsChoiceFree ∧
    (∀ c ∈ Rule.seniority.conditions, ∀ p, c.prob = some p → p.IsProbability) ∧
    (∃ texts, prolog.renderRule .discreet .seniority = .ok (lines texts) ∧
      problog.renderRule .discreet .seniority = .ok (lines (List.zipWith
        (fun c => annotated .one c.prob) Rule.seniority.conditions texts))) ∧
    ∃ texts, prolog.renderFacts .discreet [.acquaintance] = .ok (lines texts) ∧
      problog.renderFacts .discreet [.acquaintance] = .ok (lines (List.zipWith
        (fun r => annotated .one r.prob) [Record.acquaintance] texts)) := by
  have policy : RenderContext.discreet.config.probability.missing ≠ .error := nofun
  have bare : RenderContext.discreet.IsBare := ⟨rfl, rfl⟩
  have free : Rule.seniority.IsChoiceFree := by
    unfold Rule.IsChoiceFree
    decide
  have unnoted : ∀ c ∈ Rule.seniority.conditions, ∀ p, c.prob = some p → p.IsProbability := by
    intro c mem
    cases List.mem_singleton.1 mem
    nofun
  have certain : ∀ r ∈ [Record.acquaintance], ∀ p, r.prob = some p → p.IsProbability := by
    intro r mem p declared
    cases List.mem_singleton.1 mem
    cases declared
    exact (Binary64.inUnitInterval_iff .one).1 (by decide)
  obtain ⟨rules, facts⟩ := dialects_agree policy
  refine ⟨policy, bare, rfl, free, unnoted, ?_, ?_⟩
  · rcases rules _ bare rfl free unnoted with ⟨e, failed, -⟩ | ⟨texts, -, plain, noted⟩
    · cases renderRule_discreet.symm.trans failed
    · exact ⟨texts, plain, noted⟩
  · rcases facts _ certain with ⟨e, failed, -⟩ | ⟨texts, -, plain, noted⟩
    · cases renderFacts_discreet.symm.trans failed
    · exact ⟨texts, plain, noted⟩

end Dialect

end Clausal
