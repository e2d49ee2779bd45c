import Clausal.Pipeline
import Clausal.Proofs.Library.Declared
import Clausal.Proofs.Outcomes
import Clausal.Proofs.Record.Joining
import Clausal.Proofs.Registry.Lookups
import Clausal.Proofs.Rule.Nodes
import Clausal.Proofs.Schema.Spelled
import Clausal.Proofs.Validation.Wider

/-!
# What can go wrong with a valid rule

Main statement: `Dialect.renderRule_error_of_validate`. When a rule is valid for a view, and the
context of rendering has the schemas of the view and the library of the validation, writing the rule
fails only for what validation does not look at: how variables are named, constants without a term,
endpoints that are not bound, templates, and probabilities that are missing. Each function of the
writer is shown to fail for these reasons only on what has no fault, from references
(`Writer.refAtom_fails`) over expressions (`Writer.expr_fails`) up to rules.

The one exception is a source that answers more than the view: a predicate of the library can be
taken for a relation of the source (`Dialect.renderRule_misleading`). Registries and views cannot do
this without a collision of digests (`Misled.exists_collide`).
-/

namespace Clausal

/-- The errors that a valid rule can have in a dialect. -/
inductive Admitted (d : Dialect) : RenderError → Prop
  | invalidVariable {name mode} : Admitted d (.invalidVariable name mode)
  | variableCollision {first second rendered mode} :
    Admitted d (.variableCollision first second rendered mode)
  | reservedHeadVariable {predicate prop rendered} :
    Admitted d (.reservedHeadVariable predicate prop rendered)
  | nonFiniteConstant {value} : Admitted d (.nonFiniteConstant value)
  | unboundEndpoint {relation condition side missing} :
    Admitted d (.unboundEndpoint relation condition side missing)
  | badMapping {op template why} : Admitted d (.badMapping op template why)
  | missingProbability {context} (problog : d = .problog) : Admitted d (.missingProbability context)

/-- A context has the schemas that a view lets through. -/
def RenderContext.Resolves (context : RenderContext) (view : View) : Prop :=
  ∀ id, view.allows id = true → context.source id = view.get id

/-- A reference among the nodes is to a predicate of the library that the view does not let through,
and the source has a relation of another arity for its identifier. The error is that the terms are
too few or too many for this relation. -/
inductive Misled (view : View) (context : RenderContext) (nodes : List Node) : RenderError → Prop
  | intro {r l p relation} (named : .ref r ∈ nodes) (library : context.library = some l)
    (declared : l.predicate? r.schemaId = some p) (hidden : view.allows r.schemaId = false)
    (answer : context.source r.schemaId = .ok (.rel relation))
    (other : p.arity ≠ (Schema.rel relation).arity) :
    Misled view context nodes
      (.relationShape relation.name (Schema.rel relation).arity p.arity)

/-- The errors that are left for a valid rule with the given nodes. -/
def Tolerated (d : Dialect) (view : View) (context : RenderContext) (nodes : List Node)
    (e : RenderError) : Prop :=
  Admitted d e ∨ Misled view context nodes e

/-! ### Predicates of the library and relations -/

theorem LibrarySpec.canonical_identity_ne (s : LibrarySpec) (r : RelSchema) :
    s.identity.canonical ≠ (Schema.rel r).identityText := by
  intro same
  have chars : s.identity.sorted.compactChars = r.spelled.compactChars := by
    rw [← r.sorted_identity, ← Json.canonicalChars_eq_compactChars,
      ← Json.canonicalChars_eq_compactChars]
    exact String.ofList_injective same
  -- the texts differ in the third character, with which the first key starts
  have third := congrArg (·[2]?) chars
  rw [s.sorted_identity] at third
  exact absurd third (by simp [spelled, RelSchema.spelled, Json.compactChars,
    Json.compactMembers, Json.commaSeparated, Json.spellString, Json.spellChar])

/-- A registry or a view has each schema under its own identifier, so only a collision of digests can
make it answer a predicate of the library by a relation. -/
theorem Misled.exists_collide {view : View} {context : RenderContext} {nodes : List Node}
    {e : RenderError} (h : Misled view context nodes e) {scope : Scope}
    (source : context.source = scope.get) :
    ∃ l p r, context.library = some l ∧ p ∈ l.specs.values ∧ .rel r ∈ scope.predicates ∧
      Identifier.Collide p.identity.canonical (Schema.rel r).identityText := by
  obtain @⟨ref, l, p, r, -, library, declared, -, answer, -⟩ := h
  rw [source] at answer
  obtain ⟨held, same⟩ := Scope.get_eq_ok_iff.1 answer
  have digests := (Library.id_eq_ofText declared).symm.trans same.symm
  exact ⟨l, p, r, library, (Library.predicate?_sound declared).1, held,
    p.canonical_identity_ne r, digests.trans (Schema.rel r).id_eq_ofText⟩

/-! ### Parts of clauses -/

namespace Writer

variable {d : Dialect} {view : View} {nodes : List Node} {w : Writer}

theorem var_fails (name : String) : FailsOnly (Tolerated d view w.context nodes) (w.var name) := by
  unfold var Namer.render
  dsimp only
  split
  · exact .ok
  · exact .error (.inl .invalidVariable)

theorem renderAll_fails (names : List String) :
    FailsOnly (Tolerated d view w.context nodes) (w.config.namer.renderAll names) := by
  unfold Namer.renderAll
  generalize (SortedMap.empty : SortedMap String String) = seen
  induction names generalizing seen with
  | nil => exact .ok
  | cons name rest ih =>
    refine (var_fails name).bind fun rendered _ => ?_
    split
    · split
      · exact ih _
      · exact .error (.inl .variableCollision)
    · exact ih _

theorem toTerm_fails (value : Value) : FailsOnly (Tolerated d view w.context nodes) value.toTerm := by
  match value with
  | .bool _ | .int _ | .str _ => exact .ok
  | .float x =>
    rw [Value.toTerm]
    split
    · exact .ok
    · exact .error (.inl .nonFiniteConstant)

theorem term_fails (t : Term) : FailsOnly (Tolerated d view w.context nodes) (w.term t) :=
  match t with
  | .var _ => var_fails _
  | .const _ => toTerm_fails _

theorem resolve_of_source {id : String} {s : Schema} (h : w.context.source id = .ok s) :
    w.resolve id = .ok (.schema s) := by
  rw [resolve, h]

theorem exists_resolve_of_library {id : String} {e : SchemaError} {l : Library} {p : LibrarySpec}
    (unknown : w.context.source id = .error e) (library : w.context.library = some l)
    (declared : l.predicate? id = some p) :
    ∃ name handler, w.resolve id = .ok (.library name handler) := by
  simp only [resolve, unknown, library, Option.bind_some, declared]
  exact ⟨_, _, rfl⟩

theorem libraryAtom_eq_ok (name : String) (handler : Option Handler) (terms : List String) :
    ∃ text, atom (.library name handler) terms = .ok text := by
  cases handler <;> exact ⟨_, rfl⟩

/-- The atom of a schema can only be of a relation and have the wrong number of terms. -/
theorem schemaAtom_fails {s : Schema} {terms : List String} {P : RenderError → Prop}
    (misfit : ∀ r, s = .rel r → terms.length ≠ s.arity →
      P (.relationShape r.name s.arity terms.length)) :
    FailsOnly P (atom (.schema s) terms) := by
  cases s with
  | fact f => exact .ok
  | rel r =>
    rw [r.arity_eq] at misfit
    simp only [atom, RelSchema.atom]
    split
    case isTrue ne => exact .error (misfit r rfl ne)
    case isFalse => exact .ok

/-- What a reference without a fault stands for can be applied to its terms. -/
theorem exists_resolve (resolves : w.context.Resolves view) {headId : String} {r : Ref}
    (named : .ref r ∈ nodes)
    (sound : ¬ Validator.RefFault ⟨view, w.context.library⟩ headId r) :
    ∃ target, w.resolve r.schemaId = .ok target ∧ ∀ terms, terms.length = r.terms.length →
      FailsOnly (Tolerated d view w.context nodes) (atom target terms) := by
  obtain ⟨t, refers, length⟩ := Validator.exists_refersTo sound
  cases refers with
  | @schema s visible found =>
    have answer : w.context.source r.schemaId = .ok s := by
      rw [resolves _ visible, View.get, if_pos visible, found]
    refine ⟨_, resolve_of_source answer, fun terms eq => schemaAtom_fails fun _ _ ne => ?_⟩
    exact absurd (eq.trans length) ne
  | @spec l p hidden library found =>
    -- validation asks the view before the library, writing asks the source before the library
    cases answer : w.context.source r.schemaId with
    | error e =>
      obtain ⟨name, handler, resolved⟩ := exists_resolve_of_library answer library found
      refine ⟨_, resolved, fun terms _ => ?_⟩
      obtain ⟨text, written⟩ := libraryAtom_eq_ok name handler terms
      exact written ▸ .ok
    | ok s =>
      refine ⟨_, resolve_of_source answer, fun terms eq => schemaAtom_fails ?_⟩
      rintro relation rfl ne
      have arity : terms.length = p.arity := eq.trans length
      rw [arity] at ne ⊢
      exact .inr (.intro named library found hidden answer ne)

theorem refAtom_fails (resolves : w.context.Resolves view) {headId : String} {r : Ref}
    (named : .ref r ∈ nodes)
    (sound : ¬ Validator.RefFault ⟨view, w.context.library⟩ headId r) :
    FailsOnly (Tolerated d view w.context nodes) (w.refAtom r) := by
  obtain ⟨target, resolved, applied⟩ := exists_resolve resolves named sound
  rw [refAtom, resolved, ok_bind]
  exact (FailsOnly.mapM fun t _ => term_fails t).bind fun terms written =>
    applied terms (length_of_mapM written)

theorem application_fails (op : String) (args : List String) :
    FailsOnly (Tolerated d view w.context nodes) (w.application op args) := by
  unfold application
  split
  · exact .ok
  · dsimp only
    split
    · exact .ok
    · exact .mapError fun why => .inl .badMapping
    · exact .ok

mutual

/-- By induction on the expression, which has a fault when a part of it has one. -/
theorem expr_fails (resolves : w.context.Resolves view) {headId : String} {b : Bool} {e : Expr}
    (named : e.nodes ⊆ nodes)
    (sound : ¬ Validator.ExprFault ⟨view, w.context.library⟩ headId b e) :
    FailsOnly (Tolerated d view w.context nodes) (w.expr e) := by
  match e with
  | .var _ => exact var_fails _
  | .const _ => exact toTerm_fails _
  | .ref r =>
    rw [Validator.exprFault_ref, not_or, not_or] at sound
    obtain ⟨positive, -, sound⟩ := sound
    rw [expr, if_neg positive]
    exact refAtom_fails resolves (named (List.mem_singleton_self _)) sound
  | .unify lhs rhs =>
    rw [Validator.exprFault_unify, not_or] at sound
    obtain ⟨left, right⟩ := List.append_subset.1 named
    rw [expr]
    exact (expr_fails resolves left sound.1).bind fun _ _ =>
      (expr_fails resolves right sound.2).bind_ok
  | .call op args =>
    rw [Validator.exprFault_call, not_or] at sound
    have inner := (List.cons_subset.1 named).2
    rw [expr]
    refine (exprs_fails resolves inner fun a ha fault => sound.2 ⟨a, ha, fault⟩).bind ?_
    exact fun written _ => application_fails op written
  | .choice condition yes no =>
    rw [Validator.exprFault_choice, not_or, not_or] at sound
    obtain ⟨front, third⟩ := List.append_subset.1 named
    obtain ⟨first, second⟩ := List.append_subset.1 front
    rw [expr]
    refine (expr_fails resolves first sound.1).bind fun _ _ => ?_
    exact (expr_fails resolves second sound.2.1).bind fun _ _ =>
      (expr_fails resolves third sound.2.2).bind_ok
  | .not e =>
    rw [Validator.exprFault_not] at sound
    rw [expr]
    have inner : e.nodes ⊆ nodes := named
    exact (expr_fails resolves inner sound).bind_ok

theorem exprs_fails (resolves : w.context.Resolves view) {headId : String} {b aroundSymbol : Bool}
    {es : List Expr} (named : Expr.nodesOfAll es ⊆ nodes)
    (sound : ∀ e ∈ es, ¬ Validator.ExprFault ⟨view, w.context.library⟩ headId b e) :
    FailsOnly (Tolerated d view w.context nodes) (w.exprs aroundSymbol es) := by
  match es with
  | [] => exact .ok
  | e :: rest =>
    obtain ⟨first, later⟩ := List.append_subset.1 named
    rw [exprs]
    exact (expr_fails resolves first (sound e List.mem_cons_self)).bind fun _ _ =>
      (exprs_fails resolves later fun x hx => sound x (List.mem_cons_of_mem _ hx)).bind_ok

end

theorem literal_fails (resolves : w.context.Resolves view) {headId : String} {l : Literal}
    (named : l.nodes ⊆ nodes)
    (sound : ¬ Validator.LiteralFault ⟨view, w.context.library⟩ headId l) :
    FailsOnly (Tolerated d view w.context nodes) (w.literal l) := by
  cases l with
  | ref r => exact (refAtom_fails resolves (named (List.mem_singleton_self _)) sound).bind_ok
  | expr e => exact expr_fails resolves named sound

/-! ### Heads, bodies and clauses -/

theorem checkReserved_fails (r : RelSchema) :
    FailsOnly (Tolerated d view w.context nodes) (w.checkReserved r) := by
  unfold checkReserved
  refine (FailsOnly.mapM fun name _ => var_fails name).bind fun reserved _ => ?_
  refine FailsOnly.forM fun prop _ => (var_fails prop.name).bind fun rendered _ => ?_
  split
  · exact .error (.inl .reservedHeadVariable)
  · exact .ok

theorem head_fails (s : Schema) : FailsOnly (Tolerated d view w.context nodes) (w.head s) := by
  have named : FailsOnly (Tolerated d view w.context nodes) (do
      let _ ← w.config.namer.renderAll s.headNames
      return compound s.name (← s.headNames.mapM w.var)) :=
    (renderAll_fails _).bind fun _ _ => (FailsOnly.mapM fun name _ => var_fails name).bind_ok
  cases s with
  | fact f => exact named
  | rel r => exact (checkReserved_fails r).bind fun _ _ => named

theorem sideBinding_fails (r : RelSchema) (condition : Nat) (bound : List String) (side : Side) :
    FailsOnly (Tolerated d view w.context nodes) (w.sideBinding r condition bound side) := by
  unfold sideBinding
  refine (var_fails side.headVar).bind fun v _ => ?_
  split
  · exact .ok
  · refine (FailsOnly.mapM fun key _ => var_fails _).bind fun keyVars _ => ?_
    dsimp only
    split
    · exact .error (.inl .unboundEndpoint)
    · exact .ok

theorem bindings_fails (r : RelSchema) (condition : Nat) (c : Condition) :
    FailsOnly (Tolerated d view w.context nodes) (w.bindings r condition c) := by
  unfold bindings
  refine (FailsOnly.mapM fun name _ => var_fails name).bind fun bound _ => ?_
  exact (sideBinding_fails r _ _ _).bind fun sub _ => (sideBinding_fails r _ _ _).bind_ok

theorem body_fails (resolves : w.context.Resolves view) {s : Schema} {c : Condition}
    (condition : Nat) (named : c.nodes ⊆ nodes)
    (sound : ∀ l ∈ c.literals, ¬ Validator.LiteralFault ⟨view, w.context.library⟩ s.id l) :
    FailsOnly (Tolerated d view w.context nodes) (w.body s condition c) := by
  unfold body
  refine (renderAll_fails _).bind fun _ _ => ?_
  have each : ∀ l ∈ c.literals, FailsOnly (Tolerated d view w.context nodes) (w.literal l) :=
    fun l hl => literal_fails resolves (fun n hn => named (List.mem_flatMap.2 ⟨l, hl, hn⟩))
      (sound l hl)
  refine (FailsOnly.mapM each).bind fun literals _ => ?_
  dsimp only
  split
  · exact (bindings_fails _ _ _).bind_ok
  · exact .ok

end Writer

namespace Dialect

theorem clauseLines_fails {P : RenderError → Prop}
    {write : Nat → Condition → Except RenderError (List String)} {conditions : List Condition}
    (each : ∀ c ∈ conditions, ∀ index, FailsOnly P (write index c)) (index : Nat) :
    FailsOnly P (clauseLines write index conditions) := by
  induction conditions generalizing index with
  | nil => exact .ok
  | cons c rest ih =>
    refine (each c List.mem_cons_self index).bind fun first _ => ?_
    exact (ih (fun x hx => each x (List.mem_cons_of_mem _ hx)) _).bind_ok

/-- A declared probability that is one can be written. -/
theorem resolveRule_fails {view : View} {context : RenderContext} {nodes : List Node}
    (config : ProbabilityConfig) {prob : Option Binary64}
    (sound : ∀ p, prob = some p → p.IsProbability) (place : String) :
    FailsOnly (Tolerated .problog view context nodes) (config.resolveRule prob place) := by
  unfold ProbabilityConfig.resolveRule ProbabilityConfig.resolve
  match prob with
  | some p =>
    have inside : ProbabilityConfig.checkRange place p = .ok () :=
      if_pos ((Binary64.inUnitInterval_iff p).2 (sound p rfl))
    dsimp only
    rw [inside]
    exact .ok
  | none =>
    cases config.missing with
    | injectDefault | warnAndDefault => exact .ok
    | error => exact .error (.inl (.missingProbability rfl))

/-- **A valid rule has one structural error at most.** With the schemas of the view and the library
that the rule was validated for, writing the rule fails for admitted reasons, or because a predicate
of the library is taken for a relation of another arity. When schemas come from a registry or from a
view, the latter takes a collision of the digests of their texts. -/
theorem renderRule_error_of_validate {d : Dialect} (writes : d = .prolog ∨ d = .problog)
    {view : View} {context : RenderContext} (resolves : context.Resolves view) {r : Rule}
    (valid : Validator.validate ⟨view, context.library⟩ r = .ok ()) :
    (∀ e, d.renderRule context r = .error e → Tolerated d view context r.nodes e) ∧
      ∀ scope : Scope, context.source = scope.get → ∀ e, Misled view context r.nodes e →
        ∃ l p r, context.library = some l ∧ p ∈ l.specs.values ∧ .rel r ∈ scope.predicates ∧
          Identifier.Collide p.identity.canonical (Schema.rel r).identityText := by
  -- a rule that passes has no faulty site at all
  have sound (s : Site) : ¬ Validator.FaultyAt ⟨view, context.library⟩ r s := fun faulty =>
    (Validator.checkConditions_finds _ r.head 0 r.conditions).ok valid s
      (Validator.faultyAt_iff.1 faulty)
  have probability : ∀ c ∈ r.conditions, ∀ p, c.prob = some p → p.IsProbability := by
    intro c hc p hp
    obtain ⟨i, hi⟩ := List.mem_iff_getElem?.1 hc
    exact not_not.1 fun out => sound _ (.probability hi hp out)
  have head (w : Writer) (same : w.context = context) :
      FailsOnly (Tolerated d view context r.nodes) (w.head r.head) := same ▸ Writer.head_fails _
  have body (w : Writer) (same : w.context = context) (index : Nat) :
      ∀ c ∈ r.conditions,
        FailsOnly (Tolerated d view context r.nodes) (w.body r.head index c) := by
    subst same
    intro c hc
    obtain ⟨i, hi⟩ := List.mem_iff_getElem?.1 hc
    have named : c.nodes ⊆ r.nodes := fun n hn => List.mem_flatMap.2 ⟨c, hc, hn⟩
    refine Writer.body_fails resolves index named fun l hl fault => ?_
    obtain ⟨j, hj⟩ := List.mem_iff_getElem?.1 hl
    exact sound _ (.literal hi hj fault)
  refine ⟨?_, fun scope source e misled => misled.exists_collide source⟩
  rcases writes with rfl | rfl
  · refine (head _ rfl).bind fun text _ => FailsOnly.bind_ok ?_
    exact clauseLines_fails (fun c hc index => (body _ rfl index c hc).bind_ok) 0
  · refine (head _ rfl).bind fun text _ => FailsOnly.bind_ok ?_
    refine clauseLines_fails (fun c hc index => ?_) 0
    refine (resolveRule_fails _ (probability c hc) _).bind fun p _ => ?_
    exact (body _ rfl index c hc).bind_ok

end Dialect

/-! ### Knowing someone -/

/-- That someone has known number 3 since some year. -/
def Ref.knowsThree : Ref where
  schemaId := "4c22fa84c77a9fe173623d88e69b6b4b074a5defea6c34d837715dc997f49848"
  terms := [.var ⟨"sub_number", none⟩, .const ⟨.int 3, none⟩, .var ⟨"since", none⟩]
  negated := false

/-- Whoever has known number 3 since some year knows someone, but the body does not say whom. -/
def Rule.onesided : Rule where
  head := .rel .undated
  conditions := [⟨[.ref .knowsThree], none⟩]
  overrides := .none

/-- A context with one relation. -/
def RenderContext.acquainted : RenderContext where
  source id :=
    if id = Ref.knowsThree.schemaId then .ok (.rel .knows) else .error (.unknownSchemaId id)
  library := none
  handlers := none
  config := .default

theorem Validator.validate_onesided {view : View}
    (visible : view.get RelSchema.knows.id = .ok (.rel .knows)) :
    validate ⟨view, none⟩ .onesided = .ok () := by
  have target : target? ⟨view, none⟩ Ref.knowsThree.schemaId =
      some ⟨"knows", [some "int", some "int", some "int"]⟩ := by
    have id : Ref.knowsThree.schemaId = RelSchema.knows.id := RelSchema.id_knows.symm
    rw [target?, id, visible]
    rfl
  have other : Ref.knowsThree.schemaId ≠ RelSchema.undated.id := by
    rw [RelSchema.id_undated]
    decide +kernel
  have ref : checkRef ⟨view, none⟩ RelSchema.undated.id ⟨"knows", 0, 0⟩ .knowsThree = .ok () := by
    rw [checkRef, if_neg other, target]
    decide +kernel
  exact check_bind_eq_ok.2 ⟨rfl, check_bind_eq_ok.2 ⟨check_bind_eq_ok.2 ⟨ref, rfl⟩, rfl⟩⟩

theorem Dialect.renderRule_onesided : prolog.renderRule .acquainted .onesided =
    .error (.unboundEndpoint "knows" 0 .obj ["Obj_number"]) := by
  decide +kernel

theorem Dialect.renderRule_error_onesided :
    ∃ view, View.ofIds .acquaintances [RelSchema.knows.id] = .ok view ∧
      RenderContext.acquainted.Resolves view ∧ Validator.validate ⟨view, none⟩ .onesided = .ok () ∧
      ∃ e, prolog.renderRule .acquainted .onesided = .error e ∧
        Tolerated .prolog view .acquainted Rule.onesided.nodes e := by
  have made := Registry.acquaintances.madeOf_predicates
  have held : .rel .knows ∈ Registry.acquaintances.predicates := .tail _ (.head _)
  have known : [RelSchema.knows.id] ⊆ Registry.acquaintances.ids :=
    List.cons_subset.2 ⟨made.mem_ids_iff.2 (List.mem_map_of_mem held), List.nil_subset _⟩
  obtain ⟨view, selected⟩ := View.exists_ofIds known
  have restricts := Scope.Restricts.ids made selected
  have visible : view.get RelSchema.knows.id = .ok (.rel .knows) :=
    Scope.get_eq_ok_iff.2 ⟨restricts.mem_predicates.2 ⟨held, List.mem_singleton_self _⟩, rfl⟩
  have resolves : RenderContext.acquainted.Resolves view := by
    intro id allowed
    obtain rfl : id = RelSchema.knows.id :=
      List.mem_singleton.1 (restricts.mem_ids_iff.1 (List.contains_iff_mem.1 allowed))
    rw [visible]
    exact if_pos RelSchema.id_knows
  have valid := Validator.validate_onesided visible
  exact ⟨view, selected, resolves, valid, _, renderRule_onesided,
    (renderRule_error_of_validate (.inl rfl) resolves valid).1 _ renderRule_onesided⟩

/-! ### Deferring to someone older -/

/-- A context with one relation, which it also takes for who is older than whom. -/
def RenderContext.misleading : RenderContext where
  source id :=
    if id = RelSchema.knows.id ∨ id = LibrarySpec.olderId then .ok (.rel .knows)
    else .error (.unknownSchemaId id)
  library := some .ages
  handlers := none
  config := .default

theorem RenderContext.resolves_misleading : misleading.Resolves Validator.narrow.view := by
  intro id allowed
  obtain ⟨-, wanted⟩ := List.mem_filter.1 (List.contains_iff_mem.1 allowed)
  obtain rfl : id = RelSchema.knows.id := beq_iff_eq.1 wanted
  have held : Schema.rel .knows ∈ Registry.acquaintances.predicates := .tail _ (.head _)
  have found : Registry.acquaintances.get RelSchema.knows.id = .ok (.rel .knows) :=
    Registry.get_eq_ok_iff.2 ⟨held, rfl⟩
  rw [View.get, if_pos allowed]
  exact (if_pos (.inl rfl)).trans found.symm

/-- **A source can mislead the writer.** The rule is valid, since the library says who is older, but
the source has a relation for this identifier, and two terms are too few for it. -/
theorem Dialect.renderRule_misleading :
    RenderContext.misleading.Resolves Validator.narrow.view ∧
      Validator.validate ⟨Validator.narrow.view, RenderContext.misleading.library⟩ .deferring =
        .ok () ∧
      prolog.renderRule .misleading .deferring = .error (.relationShape "knows" 3 2) ∧
      problog.renderRule .misleading .deferring = .error (.relationShape "knows" 3 2) := by
  refine ⟨RenderContext.resolves_misleading, Validator.validate_narrow, ?_⟩
  rw [RenderContext.misleading, Rule.deferring, RelSchema.id_knows]
  decide +kernel

end Clausal
