import Clausal.Proofs.Outcomes
import Clausal.Render.Dialect

/-!
# A rule, condition by condition

Main statement: `Dialect.blocks_of_renderRule`. A rule that is written has a block of lines for each
of its conditions, one after the other, whatever is consulted for it. A block has the clause of its
condition and nothing else, but for what ProbLog puts in front of it and above it. Queries are taken
apart in the same way (`Dialect.atom_of_renderQuery`).
-/

namespace Clausal

namespace Dialect

/-- The lines for a condition of a rule whose head is written. -/
def conditionLines (d : Dialect) (w : Writer) (r : Rule) (head : String) (index : Nat)
    (c : Condition) : Except RenderError (List String) :=
  match d with
  | .prolog => prologClause w r.head head index c
  | .problog => problogClause w r.head head r.conditions.length index c
  | _ => .error (.unsupportedDialect d.name)

/-- The lines of the condition at an index, which has the given text as its clause. -/
inductive IsBlock (w : Writer) (r : Rule) (index : Nat) (c : Condition) (text : String) :
    Dialect → List String → Prop
  | prolog : IsBlock w r index c text .prolog [text]
  /-- In ProbLog the probability is in front of the clause, and a comment above it if wanted. -/
  | problog {p origin} (resolved : w.config.probability.resolveRule c.prob
      s!"rule `{r.head.name}` condition {Text.decimal index}" = .ok (p, origin)) :
    IsBlock w r index c text .problog
      (if w.config.comments then
        [comment r.head index r.conditions.length p origin, annotation p ++ text]
      else [ annotation p ++ text])

variable {d : Dialect} {w : Writer} {r : Rule} {head : String}

theorem isBlock_of_conditionLines {index : Nat} {c : Condition} {block : List String}
    (h : d.conditionLines w r head index c = .ok block) :
    ∃ body, w.body r.head index c = .ok body ∧ IsBlock w r index c (clause head body) d block := by
  cases d with
  | prolog =>
    obtain ⟨body, written, h⟩ := bind_eq_ok.1 h
    cases h
    exact ⟨body, written, .prolog⟩
  | problog =>
    obtain ⟨⟨p, origin⟩, resolved, h⟩ := bind_eq_ok.1 h
    obtain ⟨body, written, h⟩ := bind_eq_ok.1 h
    cases h
    exact ⟨body, written, .problog resolved⟩
  | cypher | datalog => cases h

/-- The lines of conditions are those of each, in turn. -/
theorem blocks_of_clauseLines {write : Nat → Condition → Except RenderError (List String)}
    {conditions : List Condition} : ∀ {index : Nat} {texts : List String},
    clauseLines write index conditions = .ok texts →
      ∃ block : Nat → List String, texts = (List.range conditions.length).flatMap block ∧
        ∀ i c, conditions[i]? = some c → write (index + i) c = .ok (block i) := by
  induction conditions with
  | nil =>
    intro index texts h
    cases h
    exact ⟨fun _ => [], rfl, fun _ _ h => by cases h⟩
  | cons c rest ih =>
    intro index texts h
    obtain ⟨first, written, h⟩ := bind_eq_ok.1 h
    obtain ⟨others, later, h⟩ := bind_eq_ok.1 h
    cases h
    obtain ⟨block, rfl, each⟩ := ih later
    -- the conditions behind the first one keep their blocks, at the next index
    refine ⟨fun i => Nat.casesOn i first block, ?_, ?_⟩
    · rw [List.length_cons, List.range_succ_eq_map, List.flatMap_cons, List.flatMap_map]
      rfl
    · rintro (_ | i) c' h
      · cases h
        exact written
      · have later := each i c' h
        rwa [Nat.add_assoc, Nat.add_comm 1] at later

/-- **A rule is written condition by condition**, each with its own block of lines, and all of them
under the same head. -/
theorem blocks_of_renderRule {context : RenderContext} {text : String}
    (h : d.renderRule context r = .ok text) :
    ∃ head, (Writer.forRule context d.name d.choiceStyle r).head r.head = .ok head ∧
      ∃ block : Nat → List String,
        text = lines ((List.range r.conditions.length).flatMap block) ∧
        ∀ i c, r.conditions[i]? = some c →
          ∃ body, (Writer.forRule context d.name d.choiceStyle r).body r.head i c = .ok body ∧
            IsBlock (.forRule context d.name d.choiceStyle r) r i c (clause head body) d
              (block i) := by
  obtain ⟨head, hh, texts, written, rfl⟩ : ∃ head,
      (Writer.forRule context d.name d.choiceStyle r).head r.head = .ok head ∧ ∃ texts,
        clauseLines (d.conditionLines (.forRule context d.name d.choiceStyle r) r head) 0
          r.conditions = .ok texts ∧ lines texts = text := by
    cases d with
    | prolog | problog =>
      obtain ⟨head, hh, h⟩ := bind_eq_ok.1 h
      obtain ⟨texts, written, h⟩ := bind_eq_ok.1 h
      exact ⟨head, hh, texts, written, Except.ok.inj h⟩
    | cypher | datalog => cases h
  obtain ⟨block, rfl, each⟩ := blocks_of_clauseLines written
  refine ⟨head, hh, block, rfl, fun i c hc => isBlock_of_conditionLines ?_⟩
  rw [← each i c hc, Nat.zero_add]

end Dialect

/-! ### Queries -/

/-- What a query asks about. -/
def Writer.target (w : Writer) : QueryTarget → Except RenderError Resolved
  | .schema s => .ok (.schema s)
  | .lookup schemaId => w.resolve schemaId

namespace Dialect

/-- The line of a query, from its written atom. -/
def goal (d : Dialect) (atom : String) : String :=
  match d with
  | .problog => "query(" ++ atom ++ ")."
  | _ => "?- " ++ atom ++ "."

variable {d : Dialect} {context : RenderContext} {q : Query} {text : String}

/-- A query is written as its atom. -/
theorem renderQuery_eq (wired : d.isStub = false) (context : RenderContext) (q : Query) :
    d.renderQuery context q =
      d.goal <$> (Writer.plain context d.name d.choiceStyle).queryAtom q := by
  cases d with
  | prolog | problog =>
    rw [renderQuery]
    cases (Writer.plain context _ _).queryAtom q <;> rfl
  | cypher | datalog => cases wired

/-- A query that is written has its names kept apart, and the atom of its target. -/
theorem atom_of_renderQuery (h : d.renderQuery context q = .ok text) :
    (∃ kept, context.config.namer.renderAll (Term.varNames q.terms) = .ok kept) ∧
      ∃ terms, q.terms.mapM (Writer.plain context d.name d.choiceStyle).term = .ok terms ∧
        ∃ target, (Writer.plain context d.name d.choiceStyle).target q.target = .ok target ∧
          ∃ atom, Writer.atom target terms = .ok atom ∧ text = d.goal atom := by
  have wired : d.isStub = false := by
    cases d with
    | prolog | problog => rfl
    | cypher | datalog => cases h
  rw [renderQuery_eq wired] at h
  obtain ⟨atom, written, rfl⟩ := map_eq_ok.1 h
  obtain ⟨kept, apart, written⟩ := bind_eq_ok.1 written
  obtain ⟨terms, each, written⟩ := bind_eq_ok.1 written
  refine ⟨⟨kept, apart⟩, terms, each, ?_⟩
  obtain ⟨asked, given⟩ := q
  cases asked with
  | schema s => exact ⟨_, rfl, atom, written, rfl⟩
  | lookup schemaId =>
    obtain ⟨target, found, written⟩ := bind_eq_ok.1 written
    exact ⟨target, found, atom, written, rfl⟩

end Dialect

end Clausal
