import Clausal.Proofs.Render.Blocks
import Clausal.Proofs.Render.Phrase
import Clausal.Proofs.Schema.Normal
import Mathlib.Data.List.Forall2

/-!
# Conditions do not see each other

Main statement: `Dialect.clauses_independent`. A rule is written as its conditions are, each in a
rule of its own. What depends on the index of a condition are the errors that name it (`IsLocal`)
and the comment above its clause, and nothing is handed on from one condition to the next.
-/

namespace Clausal

/-- A rule with one condition in place of its own. -/
def Rule.only (r : Rule) (c : Condition) : Rule := { r with conditions := [c] }

/-! ### Outcomes at an index -/

/-- `Shifted rule i j e e'`: two errors about a rule are the same, but that the second one names the
condition `j` where the first one names the condition `i`. -/
inductive RenderError.Shifted (rule : String) (i j : Nat) : RenderError → RenderError → Prop
  | same {e} : Shifted rule i j e e
  | unbound {relation side missing} : Shifted rule i j (.unboundEndpoint relation i side missing)
      (.unboundEndpoint relation j side missing)
  | missing : Shifted rule i j
      (.missingProbability s!"rule `{rule}` condition {Text.decimal i}")
      (.missingProbability s!"rule `{rule}` condition {Text.decimal j}")
  | outOfRange {p} : Shifted rule i j
      (.probabilityOutOfRange s!"rule `{rule}` condition {Text.decimal i}" p)
      (.probabilityOutOfRange s!"rule `{rule}` condition {Text.decimal j}" p)

/-- An outcome that would be the same at any index, but for errors that name the index. -/
def IsLocal {α : Type} (rule : String) (outcome : Nat → Except RenderError α) : Prop :=
  (∃ a, ∀ i, outcome i = .ok a) ∨
    ∃ e : Nat → RenderError, (∀ i, outcome i = .error (e i)) ∧
      ∀ i j, RenderError.Shifted rule i j (e i) (e j)

namespace IsLocal

variable {α β : Type} {rule : String}

theorem const (x : Except RenderError α) : IsLocal rule fun _ => x := by
  cases x with
  | error e => exact .inr ⟨fun _ => e, fun _ => rfl, fun _ _ => .same⟩
  | ok a => exact .inl ⟨a, fun _ => rfl⟩

theorem bind {f : Nat → Except RenderError α} {g : α → Nat → Except RenderError β}
    (first : IsLocal rule f) (next : ∀ a, IsLocal rule (g a)) :
    IsLocal rule fun i => f i >>= fun a => g a i := by
  rcases first with ⟨a, each⟩ | ⟨e, each, shifted⟩
  · have eq : (fun i => f i >>= fun a => g a i) = g a := funext fun i => by rw [each, ok_bind]
    rw [eq]
    exact next a
  · refine .inr ⟨e, fun i => ?_, shifted⟩
    dsimp only
    rw [each]
    rfl

end IsLocal

namespace Writer

variable {rule : String} (w : Writer)

/-- A binding that cannot be added names the condition. -/
theorem isLocal_sideBinding (r : RelSchema) (bound : List String) (side : Side) :
    IsLocal rule fun i => w.sideBinding r i bound side := by
  refine .bind (.const (w.var side.headVar)) fun v => ?_
  dsimp only
  split
  · exact .const _
  · refine .bind (.const _) fun keyVars => ?_
    split
    · exact .inr ⟨_, fun _ => rfl, fun _ _ => .unbound⟩
    · exact .const _

theorem isLocal_bindings (r : RelSchema) (c : Condition) :
    IsLocal rule fun i => w.bindings r i c :=
  .bind (.const _) fun bound => .bind (w.isLocal_sideBinding r bound .sub) fun _ =>
    .bind (w.isLocal_sideBinding r bound .obj) fun _ => .const _

theorem isLocal_body (s : Schema) (c : Condition) : IsLocal rule fun i => w.body s i c := by
  refine .bind (.const _) fun _ => .bind (.const _) fun literals => ?_
  dsimp only
  split
  · exact .bind (w.isLocal_bindings _ c) fun _ => .const _
  · exact .const _

end Writer

/-- A probability that cannot be written names the condition. -/
theorem ProbabilityConfig.isLocal_resolveRule (config : ProbabilityConfig)
    (prob : Option Binary64) (rule : String) : IsLocal rule fun i =>
      config.resolveRule prob s!"rule `{rule}` condition {Text.decimal i}" := by
  unfold resolveRule resolve
  cases prob with
  | some p =>
    refine .bind ?_ fun _ => .const _
    unfold checkRange
    split
    · exact .const _
    · exact .inr ⟨_, fun _ => rfl, fun _ _ => .outOfRange⟩
  | none =>
    dsimp only
    split
    · exact .const _
    · exact .const _
    · exact .inr ⟨_, fun _ => rfl, fun _ _ => .missing⟩

/-! ### Clauses with their comments -/

/-- A written clause, with the probability that is in the comment above it, if there is one. -/
structure NotedClause where
  noted : Option (Binary64 × ProbabilityOrigin)
  text : String

namespace NotedClause

/-- The lines of a clause, as the one at an index of so many. -/
def lines (s : Schema) (total index : Nat) (c : NotedClause) : List String :=
  c.noted.toList.map (fun (p, origin) => Dialect.comment s index total p origin) ++ [c.text]

/-- The lines of clauses, the first of which has the given index. -/
def linesFrom (s : Schema) (total index : Nat) : List NotedClause → List String
  | [] => []
  | c :: rest => c.lines s total index ++ linesFrom s total (index + 1) rest

theorem lines_of_none {s : Schema} {total index : Nat} {c : NotedClause} (h : c.noted = none) :
    c.lines s total index = [c.text] := by
  rw [lines, h]
  rfl

/-- Clauses without comments are written as their texts. -/
theorem linesFrom_of_none {s : Schema} {total index : Nat} {P : Condition → String → Prop}
    {conditions : List Condition} {clauses : List NotedClause}
    (each : List.Forall₂ (fun c clause => P c clause.text ∧ clause.noted = none)
      conditions clauses) :
    ∃ texts, List.Forall₂ P conditions texts ∧ linesFrom s total index clauses = texts := by
  induction each generalizing index with
  | nil => exact ⟨[], .nil, rfl⟩
  | cons first _ ih =>
    obtain ⟨texts, others, eq⟩ := @ih (index + 1)
    exact ⟨_ :: texts, .cons first.1 others, by rw [linesFrom, lines_of_none first.2, eq]; rfl⟩

end NotedClause

namespace Dialect

variable {d : Dialect} {w : Writer} {r : Rule} {head : String}

/-- The clause of a condition of a rule whose head is written. -/
def notedClause (d : Dialect) (w : Writer) (s : Schema) (head : String) (index : Nat)
    (c : Condition) : Except RenderError NotedClause :=
  match d with
  | .prolog => do return ⟨none, clause head (← w.body s index c)⟩
  | .problog => do
    let (p, origin) ← w.config.probability.resolveRule c.prob
      s!"rule `{s.name}` condition {Text.decimal index}"
    let text := annotation p ++ clause head (← w.body s index c)
    return ⟨if w.config.comments then some (p, origin) else none, text⟩
  | _ => .error (.unsupportedDialect d.name)

theorem isLocal_notedClause (d : Dialect) (w : Writer) (s : Schema) (head : String)
    (c : Condition) : IsLocal s.name fun i => d.notedClause w s head i c := by
  cases d with
  | prolog => exact .bind (w.isLocal_body s c) fun _ => .const _
  | problog =>
    exact .bind (ProbabilityConfig.isLocal_resolveRule _ c.prob s.name) fun _ =>
      .bind (w.isLocal_body s c) fun _ => .const _
  | cypher | datalog => exact .const _

theorem conditionLines_eq (index : Nat) (c : Condition) :
    d.conditionLines w r head index c =
      NotedClause.lines r.head r.conditions.length index <$>
        d.notedClause w r.head head index c := by
  cases d with
  | prolog =>
    rw [conditionLines, prologClause, notedClause]
    cases w.body r.head index c <;> rfl
  | problog =>
    rw [conditionLines, problogClause, notedClause]
    cases w.config.probability.resolveRule c.prob
      s!"rule `{r.head.name}` condition {Text.decimal index}" with
    | error e => rfl
    | ok q =>
      rw [ok_bind, ok_bind]
      cases w.body r.head index c with
      | error e => rfl
      | ok body => cases w.config.comments <;> rfl
  | cypher | datalog => rfl

/-- What is written for conditions, the first of which has the given index: the lines of their
clauses, or else the error of the first one that has no clause. -/
theorem clauseLines_cases {write : Nat → Condition → Except RenderError (List String)} {s : Schema}
    {total : Nat} {f : Nat → Condition → Except RenderError NotedClause}
    (each : ∀ index c, write index c = NotedClause.lines s total index <$> f index c)
    (isLocal : ∀ c, IsLocal s.name fun i => f i c) (conditions : List Condition) (index : Nat) :
    (∃ clauses : List NotedClause,
      List.Forall₂ (fun c clause => ∀ i, f i c = .ok clause) conditions clauses ∧
        clauseLines write index conditions = .ok (NotedClause.linesFrom s total index clauses)) ∨
    ∃ i c, ∃ e : Nat → RenderError, conditions[i]? = some c ∧ (∀ j, f j c = .error (e j)) ∧
      (∀ j k, RenderError.Shifted s.name j k (e j) (e k)) ∧
      (∀ j < i, ∀ c', conditions[j]? = some c' → ∃ clause, ∀ k, f k c' = .ok clause) ∧
      clauseLines write index conditions = .error (e (index + i)) := by
  induction conditions generalizing index with
  | nil => exact .inl ⟨[], .nil, rfl⟩
  | cons c rest ih =>
    rw [clauseLines, each]
    rcases isLocal c with ⟨clause, written⟩ | ⟨e, failed, shifted⟩
    · rw [show f index c = .ok clause from written index]
      rcases ih (index + 1) with
        ⟨clauses, others, eq⟩ | ⟨i, c', e, found, failed, shifted, before, eq⟩
      · refine .inl ⟨clause :: clauses, .cons written others, ?_⟩
        show (clauseLines write (index + 1) rest >>= _) = _
        rw [eq]
        rfl
      · -- positions in the rest are one less
        have next : index + 1 + i = index + (i + 1) := by omega
        rw [next] at eq
        refine .inr ⟨i + 1, c', e, found, failed, shifted, ?_, ?_⟩
        · rintro (_ | j) less c'' hc
          · cases hc
            exact ⟨clause, written⟩
          · exact before j (Nat.lt_of_succ_lt_succ less) c'' hc
        · show (clauseLines write (index + 1) rest >>= _) = _
          rw [eq]
          rfl
    · rw [show f index c = .error (e index) from failed index]
      exact .inr ⟨0, c, e, rfl, failed, shifted, fun _ h => absurd h (Nat.not_lt_zero _), rfl⟩

/-- A rule, as its head and the lines of its conditions. -/
theorem renderRule_eq_conditionLines (known : d.isStub = false) (context : RenderContext)
    (r : Rule) : d.renderRule context r = (do
      let head ← (Writer.forRule context d.name d.choiceStyle r).head r.head
      return lines (← clauseLines
        (d.conditionLines (.forRule context d.name d.choiceStyle r) r head) 0 r.conditions)) := by
  cases d with
  | prolog | problog => rfl
  | cypher | datalog => cases known

/-- A condition in a rule of its own is written as its clause, the first one of one. -/
theorem renderRule_only (known : d.isStub = false) {context : RenderContext}
    (hh : (Writer.forRule context d.name d.choiceStyle r).head r.head = .ok head) (c : Condition) :
    d.renderRule context (r.only c) = (fun clause => lines (clause.lines r.head 1 0)) <$>
      d.notedClause (.forRule context d.name d.choiceStyle r) r.head head 0 c := by
  have same : Writer.forRule context d.name d.choiceStyle (r.only c) =
      .forRule context d.name d.choiceStyle r := rfl
  rw [renderRule_eq_conditionLines known, same, Rule.only, hh, ok_bind, clauseLines,
    conditionLines_eq]
  cases d.notedClause (.forRule context d.name d.choiceStyle r) r.head head 0 c with
  | error e => rfl
  | ok clause => exact congrArg (Except.ok ∘ lines) (List.append_nil _)

/-- There is a comment above each clause, or above none. -/
theorem isSome_noted {s : Schema} {index : Nat} {c : Condition} {clause : NotedClause}
    (h : d.notedClause w s head index c = .ok clause) :
    clause.noted.isSome = true ↔ d = .problog ∧ w.config.comments = true := by
  cases d with
  | prolog =>
    obtain ⟨body, -, h⟩ := bind_eq_ok.1 h
    cases h
    exact ⟨nofun, fun h => nomatch h.1⟩
  | problog =>
    obtain ⟨q, -, h⟩ := bind_eq_ok.1 h
    obtain ⟨body, -, h⟩ := bind_eq_ok.1 h
    cases h
    cases w.config.comments <;> simp
  | cypher | datalog => cases h

/-- A rule is written clause by clause, or else a first condition cannot be written. -/
theorem renderRule_cases (d : Dialect) (context : RenderContext) {r : Rule}
    (ne : r.conditions ≠ []) :
    (∃ clauses : List NotedClause,
      List.Forall₂ (fun c clause =>
        d.renderRule context (r.only c) = .ok (lines (clause.lines r.head 1 0)) ∧
          (clause.noted.isSome = true ↔ d = .problog ∧ context.config.comments = true))
        r.conditions clauses ∧
      d.renderRule context r =
        .ok (lines (NotedClause.linesFrom r.head r.conditions.length 0 clauses))) ∨
    ∃ i c e e', r.conditions[i]? = some c ∧ d.renderRule context (r.only c) = .error e' ∧
      RenderError.Shifted r.head.name 0 i e' e ∧
      (∀ j < i, ∀ c', r.conditions[j]? = some c' →
        ∃ text, d.renderRule context (r.only c') = .ok text) ∧
      d.renderRule context r = .error e := by
  obtain ⟨c, rest, eq⟩ := List.exists_cons_of_ne_nil ne
  have first : r.conditions[0]? = some c := by rw [eq]; rfl
  cases known : d.isStub with
  | true =>
    -- a dialect that is a stub refuses every rule alike
    have every (r : Rule) : d.renderRule context r = .error (.unsupportedDialect d.name) := by
      cases d with
      | cypher | datalog => rfl
      | prolog | problog => cases known
    exact .inr ⟨0, c, _, _, first, every _, .same, fun _ h => absurd h (Nat.not_lt_zero _), every _⟩
  | false =>
    cases hh : (Writer.forRule context d.name d.choiceStyle r).head r.head with
    | error e =>
      -- the head is the same in all of the rules, and it is written first
      have every (cs : List Condition) :
          d.renderRule context { r with conditions := cs } = .error e := by
        have same : Writer.forRule context d.name d.choiceStyle { r with conditions := cs } =
          .forRule context d.name d.choiceStyle r := rfl
        rw [renderRule_eq_conditionLines known, same, hh]
        rfl
      exact .inr ⟨0, c, e, e, first, every _, .same, fun _ h => absurd h (Nat.not_lt_zero _),
        every _⟩
    | ok head =>
      have single := renderRule_only known hh
      rw [renderRule_eq_conditionLines known, hh, ok_bind]
      rcases clauseLines_cases (fun index c => conditionLines_eq (d := d) index c)
          (isLocal_notedClause d _ r.head head) r.conditions 0 with
        ⟨clauses, written, eq⟩ | ⟨i, c, e, found, failed, shifted, before, eq⟩
      · have noted {c clause} (h : d.notedClause (.forRule context d.name d.choiceStyle r) r.head
            head 0 c = .ok clause) := isSome_noted h
        refine .inl ⟨clauses, written.imp ?_, by rw [eq]; rfl⟩
        intro c clause each
        refine ⟨?_, noted (each 0)⟩
        rw [single, each]
        rfl
      · refine .inr ⟨i, c, e i, e 0, found, ?_, shifted 0 i, fun j less c' hc => ?_, ?_⟩
        · rw [single, failed]
          rfl
        · obtain ⟨clause, each⟩ := before j less c' hc
          rw [single, each]
          exact ⟨_, rfl⟩
        · rw [eq, Nat.zero_add]
          rfl

/-- **Conditions do not see each other.** A rule with conditions is written exactly when each of
them is in a rule of its own. The clauses are the same then and follow each other in the order of
the conditions; a comment above a clause says another number and total. If some conditions cannot
be written, the error is that of the first one of them, but for the index that it names. -/
theorem clauses_independent (d : Dialect) (context : RenderContext) {r : Rule}
    (ne : r.conditions ≠ []) :
    ((∃ text, d.renderRule context r = .ok text) ↔
      ∀ c ∈ r.conditions, ∃ text, d.renderRule context (r.only c) = .ok text) ∧
    (∀ text, d.renderRule context r = .ok text → ∃ clauses : List NotedClause,
      List.Forall₂ (fun c clause =>
        d.renderRule context (r.only c) = .ok (lines (clause.lines r.head 1 0)) ∧
          (clause.noted.isSome = true ↔ d = .problog ∧ context.config.comments = true))
        r.conditions clauses ∧
      text = lines (NotedClause.linesFrom r.head r.conditions.length 0 clauses)) ∧
    (d = .prolog ∨ context.config.comments = false →
      ∀ text, d.renderRule context r = .ok text → ∃ texts,
        List.Forall₂ (fun c t => d.renderRule context (r.only c) = .ok t) r.conditions texts ∧
          text = lines texts) ∧
    ∀ e, d.renderRule context r = .error e → ∃ i c e', r.conditions[i]? = some c ∧
      d.renderRule context (r.only c) = .error e' ∧
      RenderError.Shifted r.head.name 0 i e' e ∧
      ∀ j < i, ∀ c', r.conditions[j]? = some c' →
        ∃ text, d.renderRule context (r.only c') = .ok text := by
  rcases renderRule_cases d context ne with
    ⟨clauses, each, eq⟩ | ⟨i, c, e, e', found, failed, shifted, before, eq⟩
  · have written : ∀ c ∈ r.conditions, ∃ text, d.renderRule context (r.only c) = .ok text :=
      ((List.forall₂_and_left _ _).1 (each.imp fun c clause h => ⟨⟨_, h.1⟩, h⟩)).1
    rw [eq]
    refine ⟨iff_of_true ⟨_, rfl⟩ written, ?_, ?_, nofun⟩
    · rintro text ⟨⟩
      exact ⟨clauses, each, rfl⟩
    · -- without comments a clause is written as it is alone
      rintro quiet text ⟨⟩
      have bare : List.Forall₂ (fun c clause => d.renderRule context (r.only c) =
          .ok clause.text ∧ clause.noted = none) r.conditions clauses := by
        refine each.imp fun c clause ⟨h, noted⟩ => ?_
        have none : clause.noted = none := by
          rw [← Option.not_isSome_iff_eq_none, noted]
          rintro ⟨rfl, comments⟩
          exact quiet.elim nofun fun off => Bool.noConfusion (comments.symm.trans off)
        exact ⟨by rw [h, NotedClause.lines_of_none none]; rfl, none⟩
      obtain ⟨texts, each, eq⟩ := NotedClause.linesFrom_of_none
        (P := fun c t => d.renderRule context (r.only c) = .ok t) bare
      exact ⟨texts, each, congrArg lines eq⟩
  · -- a condition fails, and is the first that does
    have unwritten : ¬∀ c ∈ r.conditions, ∃ text, d.renderRule context (r.only c) = .ok text := by
      intro every
      obtain ⟨text, h⟩ := every c (List.mem_of_getElem? found)
      cases h.symm.trans failed
    rw [eq]
    refine ⟨iff_of_false nofun unwritten, nofun, nofun, ?_⟩
    rintro e ⟨⟩
    exact ⟨i, c, e', found, failed, shifted, before⟩

end Dialect

/-! ### A rule with two clauses -/

/-- Whoever has a number that is smaller than the weight, for certain, or the same as it. -/
def Rule.bounded : Rule where
  head := .fact .person
  conditions := [
    ⟨[.expr (.call "lt" [.var ⟨"number", none⟩, .var ⟨"weight", none⟩])], some .one⟩,
    ⟨[.expr (.unify (.var ⟨"number", none⟩) (.var ⟨"weight", none⟩))], none⟩]
  overrides := .none

/-- Both clauses have a comment, which says another number and total than that of a rule with only
one of them. -/
theorem Dialect.renderRule_bounded : problog.renderRule .empty .bounded = .ok (lines [
    "% person/2 clause 1 of 2: probability 1.0 (declared)",
    "1.0::person(Number, Weight) :- Number < Weight.",
    "% person/2 clause 2 of 2: probability 1.0 (default)",
    "1.0::person(Number, Weight) :- Number = Weight."]) := by
  decide +kernel

theorem Dialect.clauses_independent_bounded :
    Rule.bounded.conditions ≠ [] ∧ ∃ clauses : List NotedClause,
      List.Forall₂ (fun c clause =>
        problog.renderRule .empty (Rule.bounded.only c) =
          .ok (lines (clause.lines Rule.bounded.head 1 0))) Rule.bounded.conditions clauses ∧
      problog.renderRule .empty .bounded =
        .ok (lines (NotedClause.linesFrom Rule.bounded.head 2 0 clauses)) := by
  have ne : Rule.bounded.conditions ≠ [] := nofun
  obtain ⟨-, written, -⟩ := clauses_independent .problog .empty ne
  obtain ⟨clauses, each, eq⟩ := written _ renderRule_bounded
  exact ⟨ne, clauses, each.imp fun _ _ h => h.1, by rw [renderRule_bounded, eq]; rfl⟩

end Clausal
