import Clausal.Proofs.Record.Expanded
import Clausal.Proofs.Render.Functors
import Clausal.Proofs.Render.Queries

/-!
# Ground atoms

Main statement: `Dialect.ground_atoms_agree`. A record is a fact, and its values make up a reference
for the bodies of rules and the terms of queries. All of them have one atom, that of the schema for
the values (`Schema.groundAtom`), whatever is consulted and configured besides. Where one of them
cannot be written, none can, for the same reason.
-/

namespace Clausal

/-- The atom of a schema for values. -/
def Schema.groundAtom (s : Schema) (values : List Value) : Except RenderError String := do
  Writer.atom (.schema s) (← values.mapM Value.toTerm)

/-! ### Constants -/

theorem Ref.varNames_constants (values : List Value) (args : List Arg) :
    Term.varNames (constants values args) = [] := by
  refine List.filterMap_eq_nil_iff.2 fun t ht => ?_
  obtain ⟨p, -, rfl⟩ := List.mem_map.1 ht
  rfl

namespace Writer

variable {w : Writer} {s : Schema} {values : List Value}

/-- Constants are written as their values are. -/
theorem mapM_term_constants {args : List Arg} (each : values.length = args.length) :
    (Ref.constants values args).mapM w.term = values.mapM Value.toTerm := by
  induction values generalizing args with
  | nil => rfl
  | cons v rest ih =>
    cases args with
    | nil => cases each
    | cons a args =>
      have others := ih (Nat.succ.inj each)
      rw [Ref.constants] at others ⊢
      rw [List.zip_cons_cons, List.map_cons, List.mapM_cons, List.mapM_cons, others]
      rfl

/-! ### Ways to a ground atom -/

theorem factAtom_eq_groundAtom {r : Record} (found : w.context.source r.schemaId = .ok s)
    (terms : r.toTerms s = .ok values) : w.factAtom r = s.groundAtom values := by
  rw [factAtom, found, Except.mapError, ok_bind, terms, Except.mapError, ok_bind]
  rfl

theorem refAtom_constants (found : w.context.source s.id = .ok s)
    (each : values.length = s.arity) :
    w.refAtom (.unchecked s.id (Ref.constants values s.signature.args)) = s.groundAtom values := by
  rw [refAtom, Ref.unchecked, resolve_of_source found, ok_bind, mapM_term_constants each]
  rfl

theorem queryAtom_constants (each : values.length = s.arity) :
    w.queryAtom ⟨.schema s, Ref.constants values s.signature.args⟩ = s.groundAtom values := by
  rw [queryAtom, Ref.varNames_constants, mapM_term_constants each]
  rfl

/-- A reference that is not negated is written as its atom, on its own and in an expression. -/
theorem literal_ref {r : Ref} (positive : r.negated = false) :
    w.literal (.ref r) = w.refAtom r ∧ w.expr (.ref r) = w.refAtom r := by
  rw [literal, expr, positive]
  exact ⟨bind_pure _, rfl⟩

end Writer

namespace Dialect

/-- **Ground atoms agree.** A record with a value for each argument makes a reference, and queries
of its terms. The line of the fact, the reference as a literal or as an expression, and the queries
for the schema and for its identifier have one atom, or they fail with one error. -/
theorem ground_atoms_agree {context : RenderContext} {s : Schema} {r : Record}
    {values : List Value} (found : context.source s.id = .ok s) (accepted : Record.Over s r)
    (terms : r.toTerms s = .ok values) :
    ∃ f, Ref.ofRecord r s = .ok f ∧
      (∀ index, prolog.factLine (.plain context prolog.name prolog.choiceStyle) index r =
        (· ++ ".") <$> s.groundAtom values) ∧
      (∀ w : Writer, w.context = context →
        w.literal (.ref f) = s.groundAtom values ∧ w.expr (.ref f) = s.groundAtom values) ∧
      (∃ q, Query.forSchema s f.terms = .ok q ∧ ∀ d : Dialect, d.isStub = false →
        d.renderQuery context q = d.goal <$> s.groundAtom values) ∧
      ∃ q, Query.forId s.id f.terms = .ok q ∧ ∀ d : Dialect, d.isStub = false →
        d.renderQuery context q = d.goal <$> s.groundAtom values := by
  obtain ⟨here, -, -⟩ := Record.toTerms_eq_ok_iff.1 terms
  obtain ⟨values', terms', each, made⟩ := Record.expands_of_toTerms accepted.content terms
  obtain rfl : values = values' := Except.ok.inj (terms.symm.trans terms')
  have known : Query.forSchema s (Ref.constants values s.signature.args) =
      .ok ⟨.schema s, Ref.constants values s.signature.args⟩ := by
    rw [Ref.ofRecord, terms] at made
    rw [Query.forSchema, (check_bind_eq_ok.1 made).1]
    rfl
  have asked (d : Dialect) : (Writer.plain context d.name d.choiceStyle).queryAtom
      ⟨.schema s, Ref.constants values s.signature.args⟩ = s.groundAtom values :=
    Writer.queryAtom_constants each
  refine ⟨_, made, fun index => ?_, fun w same => ?_, ⟨_, known, fun d wired => ?_⟩,
    ⟨_, Query.forId_id s _, fun d wired => ?_⟩⟩
  · -- the line of the record
    have fact := Writer.factAtom_eq_groundAtom (w := .plain context prolog.name prolog.choiceStyle)
      (here ▸ found) terms
    show (do return (← Writer.factAtom _ r) ++ ".") = _
    rw [fact]
    rfl
  · -- the reference, as a literal and within an expression
    have atom := w.refAtom_constants (same ▸ found) each
    rw [(Writer.literal_ref rfl).1, (Writer.literal_ref rfl).2, atom]
    exact ⟨rfl, rfl⟩
  · -- the query for the schema
    rw [renderQuery_eq wired]
    exact congrArg _ (asked d)
  · -- the query for its identifier
    rw [renderQuery_eq wired, Writer.queryAtom_lookup found]
    exact congrArg _ (asked d)

/-- The fact that two are acquainted, and the reference to it in a rule. -/
theorem ground_atoms_agree_acquaintance :
    RenderContext.knowing.source (Schema.rel .knows).id = .ok (.rel .knows) ∧
    Record.Over (.rel .knows) .acquaintance ∧
    Record.acquaintance.toTerms (.rel .knows) = .ok [.int 1, .int 2, .int 1999] ∧
    prolog.factLine (.plain .knowing prolog.name prolog.choiceStyle) 0 .acquaintance =
      .ok "knows(person(1), person(2), 1999)." ∧
    ∃ f, Ref.ofRecord .acquaintance (.rel .knows) = .ok f ∧
      (Writer.plain .knowing "problog" .disjunction).literal (.ref f) =
        .ok "knows(person(1), person(2), 1999)" := by
  have accepted : Record.Over (.rel .knows) .acquaintance := .terms Record.ofTerms_acquaintance
  have atom : (Schema.rel .knows).groundAtom [.int 1, .int 2, .int 1999] =
      .ok "knows(person(1), person(2), 1999)" := by
    decide +kernel
  have known : RenderContext.knowing.source (Schema.rel .knows).id = .ok (.rel .knows) := rfl
  obtain ⟨f, made, fact, written, -⟩ :=
    ground_atoms_agree known accepted Record.toTerms_acquaintance
  rw [atom] at fact written
  exact ⟨known, accepted, Record.toTerms_acquaintance, fact 0, f, made, (written _ rfl).1⟩

end Dialect

end Clausal
