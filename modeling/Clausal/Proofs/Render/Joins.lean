import Clausal.Proofs.Render.Blocks
import Clausal.Proofs.Render.Naming

/-!
# Joins

Main statement: `Dialect.joined_of_render`. Each occurrence of a name in a clause or query is written
as the same variable, which is no other name's: what is written is what would be written if every
name were replaced by its variable first (`Writer.literal_rename`). The occurrences of one name are
therefore joined in the text, unless its variable is the anonymous one, and the names for which it is
are known (`Namer.anonymous_iff`).
-/

namespace Clausal

/-! ### Other names for the variables -/

def Term.rename (f : String → String) : Term → Term
  | .var v => .var { v with name := f v.name }
  | .const c => .const c

def Ref.rename (f : String → String) (r : Ref) : Ref := { r with terms := r.terms.map (.rename f) }

namespace Expr

mutual

def rename (f : String → String) : Expr → Expr
  | .var v => .var { v with name := f v.name }
  | .const c => .const c
  | .call op args => .call op (renameAll f args)
  | .unify lhs rhs => .unify (rename f lhs) (rename f rhs)
  | .choice condition yes no => .choice (rename f condition) (rename f yes) (rename f no)
  | .not e => .not (rename f e)
  | .ref r => .ref (r.rename f)

def renameAll (f : String → String) : List Expr → List Expr
  | [] => []
  | e :: rest => rename f e :: renameAll f rest

end

theorem length_renameAll (f : String → String) (es : List Expr) :
    (renameAll f es).length = es.length := by
  induction es with
  | nil => rfl
  | cons e rest ih => rw [renameAll, List.length_cons, List.length_cons, ih]

theorem isInfixCall_rename (f : String → String) (e : Expr) :
    (e.rename f).isInfixCall = e.isInfixCall := by
  cases e with
  | call op args => rw [rename, isInfixCall, isInfixCall, length_renameAll]
  | _ => rfl

end Expr

def Literal.rename (f : String → String) : Literal → Literal
  | .ref r => .ref (r.rename f)
  | .expr e => .expr (e.rename f)

/-! ### Writing after renaming -/

namespace Writer

/-- The writer that takes the names of variables as they are. -/
def verbatim (w : Writer) : Writer := { w with config := { w.config with naming := .error } }

variable {w : Writer} {f : String → String}

theorem verbatim_var {name v : String} (h : w.var name = .ok v) : w.verbatim.var v = .ok v := by
  refine Namer.render_eq_ok_iff.2 ⟨?_, Namer.isVariable_of_render h⟩
  exact String.ofList_toList

theorem term_rename {t : Term} (named : ∀ a ∈ t.varName?, w.var a = .ok (f a)) :
    w.verbatim.term (t.rename f) = w.term t := by
  cases t with
  | var v =>
    have rendered := named v.name rfl
    exact (verbatim_var rendered).trans rendered.symm
  | const c => rfl

theorem terms_rename {terms : List Term}
    (named : ∀ a ∈ Term.varNames terms, w.var a = .ok (f a)) :
    (terms.map (.rename f)).mapM w.verbatim.term = terms.mapM w.term := by
  induction terms with
  | nil => rfl
  | cons t rest ih =>
    have first : w.verbatim.term (t.rename f) = w.term t := by
      refine term_rename fun a ha => named a (List.mem_filterMap.2 ⟨t, List.mem_cons_self, ha⟩)
    have later := ih fun a ha => by
      obtain ⟨u, hu, eq⟩ := List.mem_filterMap.1 ha
      exact named a (List.mem_filterMap.2 ⟨u, List.mem_cons_of_mem _ hu, eq⟩)
    rw [List.map_cons, List.mapM_cons, List.mapM_cons, first, later]

theorem refAtom_rename {r : Ref} (named : ∀ a ∈ Term.varNames r.terms, w.var a = .ok (f a)) :
    w.verbatim.refAtom (r.rename f) = w.refAtom r := by
  have terms := terms_rename named
  unfold refAtom
  rw [Ref.rename, terms]
  rfl

mutual

/-- An expression is written as it is with variables in place of their names. -/
theorem expr_rename : ∀ {e : Expr}, (∀ a ∈ e.varOccurrences, w.var a = .ok (f a)) →
    w.verbatim.expr (e.rename f) = w.expr e
  | .var v, named =>
    term_rename (t := .var v) (by simpa [Expr.varOccurrences, Term.varName?] using named)
  | .const c, _ => rfl
  | .ref r, named => by
    rw [Expr.rename, expr, expr, refAtom_rename named]
    rfl
  | .unify lhs rhs, named => by
    obtain ⟨left, right⟩ := List.forall_mem_append.1 named
    rw [Expr.rename, expr, expr, expr_rename left, expr_rename right]
  | .call op args, named => by
    rw [Expr.rename, expr, expr, Expr.length_renameAll, exprs_rename named]
    rfl
  | .choice condition yes no, named => by
    obtain ⟨front, third⟩ := List.forall_mem_append.1 named
    obtain ⟨first, second⟩ := List.forall_mem_append.1 front
    rw [Expr.rename, expr, expr, expr_rename first, expr_rename second, expr_rename third]
    rfl
  | .not e, named => by
    rw [Expr.rename, expr, expr, expr_rename (e := e) named]

theorem exprs_rename {around : Bool} :
    ∀ {es : List Expr}, (∀ a ∈ Expr.varOccurrencesOfAll es, w.var a = .ok (f a)) →
      w.verbatim.exprs around (Expr.renameAll f es) = w.exprs around es
  | [], _ => rfl
  | e :: rest, named => by
    obtain ⟨first, later⟩ := List.forall_mem_append.1 named
    rw [Expr.renameAll, exprs, exprs, expr_rename first, exprs_rename later,
      Expr.isInfixCall_rename]

end

theorem literal_rename {l : Literal} (named : ∀ a ∈ l.varOccurrences, w.var a = .ok (f a)) :
    w.verbatim.literal (l.rename f) = w.literal l := by
  cases l with
  | ref r =>
    rw [Literal.rename, literal, literal, refAtom_rename named]
    rfl
  | expr e => exact expr_rename named

theorem literals_rename {literals : List Literal}
    (named : ∀ a ∈ literals.flatMap Literal.varOccurrences, w.var a = .ok (f a)) :
    (literals.map (.rename f)).mapM w.verbatim.literal = literals.mapM w.literal := by
  induction literals with
  | nil => rfl
  | cons l rest ih =>
    obtain ⟨first, later⟩ := List.forall_mem_append.1 named
    rw [List.map_cons, List.mapM_cons, List.mapM_cons, literal_rename first, ih later]

end Writer

/-! ### Bodies -/

namespace Namer

/-- Every name becomes a variable, different names become different ones, and only the names that
are known to become the anonymous variable do so. -/
structure Spells (n : Namer) (names : List String) : Prop where
  rendered : ∀ a ∈ names, n.render a = .ok (n.spelling a)
  apart : ∀ a ∈ names, ∀ b ∈ names, n.spelling a = n.spelling b → a = b
  anonymous : ∀ a ∈ names, n.spelling a = "_" ↔ n.Hides a

theorem Separates.spells {n : Namer} {names : List String} (h : n.Separates names) :
    n.Spells names := by
  have rendered : ∀ a ∈ names, n.render a = .ok (n.spelling a) := by
    intro a ha
    obtain ⟨v, eq⟩ := h.named a ha
    rw [eq, spelling_of_render eq]
  refine ⟨rendered, fun a ha b hb same => ?_, fun _ _ => anonymous_iff⟩
  refine Decidable.byContradiction fun ne => h.apart a ha b hb ne ?_
  rw [rendered a ha, rendered b hb, same]

/-- A binding of the variable for a side to variables for some of the names. -/
def IsBinding (n : Namer) (s : Schema) (names : List String) (text : String) : Prop :=
  ∃ r side keys, s = .rel r ∧ keys ⊆ names ∧
    text = n.spelling (Side.headVar side) ++ " = " ++
      compound (r.endpoint side).name (keys.map n.spelling)

end Namer

/-- The text of a body, from the texts of its parts. -/
def conjunction (parts : List String) : String :=
  if parts.isEmpty then "true" else commaList parts

namespace Writer

variable {w : Writer}

/-- Variables that stand in a body are those for some of its names. -/
theorem exists_names {bound vars names : List String} (rendered : names.mapM w.var = .ok bound)
    (known : vars ⊆ bound) : ∃ keys, keys ⊆ names ∧ vars = keys.map w.config.namer.spelling := by
  induction vars with
  | nil => exact ⟨[], List.nil_subset _, rfl⟩
  | cons v rest ih =>
    obtain ⟨here, later⟩ := List.cons_subset.1 known
    obtain ⟨name, mem, eq⟩ := exists_of_mem_mapM rendered v here
    obtain ⟨keys, sub, rfl⟩ := ih later
    refine ⟨name :: keys, List.cons_subset.2 ⟨mem, sub⟩, ?_⟩
    rw [List.map_cons, Namer.spelling_of_render eq]

theorem isBinding_of_sideBinding {r : RelSchema} {index : Nat} {bound names : List String}
    (rendered : names.mapM w.var = .ok bound) {side : Side} {added : Option String}
    (h : w.sideBinding r index bound side = .ok added) :
    ∀ t ∈ added, w.config.namer.IsBinding (.rel r) names t := by
  rw [sideBinding_eq] at h
  obtain ⟨phrase, found, rfl⟩ := map_eq_ok.1 h
  obtain ⟨v, headed, ⟨-, rfl⟩ | ⟨-, keyVars, -, known, rfl⟩⟩ := exists_of_bindingPhrase found
  · exact fun _ ht => absurd ht (Option.not_mem_none _)
  · obtain ⟨keys, sub, rfl⟩ := exists_names rendered known
    rintro _ ⟨⟩
    refine ⟨r, side, keys, rfl, sub, ?_⟩
    rw [Namer.spelling_of_render headed, Phrase.text, Phrase.text, Phrase.text, Phrase.texts_var]

theorem isBinding_of_bindings {r : RelSchema} {index : Nat} {c : Condition} {added : List String}
    (h : w.bindings r index c = .ok added) :
    ∀ t ∈ added, w.config.namer.IsBinding (.rel r) c.varNames t := by
  obtain ⟨bound, rendered, h⟩ := bind_eq_ok.1 h
  obtain ⟨sub, first, h⟩ := bind_eq_ok.1 h
  obtain ⟨obj, second, h⟩ := bind_eq_ok.1 h
  cases h
  intro t ht
  rcases List.mem_append.1 ht with ht | ht
  · exact isBinding_of_sideBinding rendered first t (Option.mem_toList.1 ht)
  · exact isBinding_of_sideBinding rendered second t (Option.mem_toList.1 ht)

/-- The names of head and body are spelled apart, the literals are written as with their variables
in place of the names, and bindings come after them. -/
theorem joined_of_body {s : Schema} {index : Nat} {c : Condition} {body : String}
    (h : w.body s index c = .ok body) :
    w.config.namer.Spells (s.headNames ++ c.varNames) ∧
      ∃ literals added, body = conjunction (literals ++ added) ∧
        (c.literals.map (.rename w.config.namer.spelling)).mapM w.verbatim.literal = .ok literals ∧
        ∀ t ∈ added, w.config.namer.IsBinding s c.varNames t := by
  obtain ⟨kept, apart, h⟩ := bind_eq_ok.1 h
  obtain ⟨literals, written, h⟩ := bind_eq_ok.1 h
  have spells := (Namer.separates_of_renderAll apart).spells
  have renamed : (c.literals.map (.rename w.config.namer.spelling)).mapM w.verbatim.literal =
      .ok literals := by
    rw [literals_rename, written]
    intro a ha
    exact spells.rendered a (List.mem_append_right _ (Condition.mem_varNames.2 ha))
  refine ⟨spells, literals, ?_⟩
  dsimp only at h
  split at h
  · obtain ⟨added, bindings, h⟩ := bind_eq_ok.1 h
    exact ⟨added, (Except.ok.inj h).symm, renamed, isBinding_of_bindings bindings⟩
  · exact ⟨[], (Except.ok.inj h).symm, renamed, fun _ ht => absurd ht List.not_mem_nil⟩

theorem eq_compound_of_head {s : Schema} {text : String} (h : w.head s = .ok text) :
    text = compound s.name (s.headNames.map w.config.namer.spelling) := by
  rw [head_eq] at h
  obtain ⟨phrase, found, rfl⟩ := map_eq_ok.1 h
  obtain ⟨vars, rendered, rfl⟩ := exists_of_headPhrase found
  rw [Phrase.text, Phrase.texts_var, Namer.mapM_render rendered]

end Writer

/-! ### Clauses and queries -/

namespace Dialect

/-- **Occurrences of one name are written as one variable, and as that of no other name.** A clause
has the names of its head and of its condition, at any depth; its literals are written as if their
names were replaced by the variables first, and bindings that are added have no variables but these.
A query is written in the same way. So the occurrences of a name are joined, unless it is one of those
that are known to become the anonymous variable. -/
theorem joined_of_render (d : Dialect) (context : RenderContext) :
    (∀ (r : Rule) (text : String), d.renderRule context r = .ok text →
      let w := Writer.forRule context d.name d.choiceStyle r
      let n := w.config.namer
      ∃ block : Nat → List String,
        text = lines ((List.range r.conditions.length).flatMap block) ∧
        ∀ i c, r.conditions[i]? = some c →
          n.Spells (r.head.headNames ++ c.varNames) ∧
          ∃ literals added,
            IsBlock w r i c (clause (compound r.head.name (r.head.headNames.map n.spelling))
              (conjunction (literals ++ added))) d (block i) ∧
            (c.literals.map (.rename n.spelling)).mapM w.verbatim.literal = .ok literals ∧
            ∀ t ∈ added, n.IsBinding r.head c.varNames t) ∧
    (∀ (q : Query) (text : String), d.renderQuery context q = .ok text →
      let w := Writer.plain context d.name d.choiceStyle
      let n := w.config.namer
      n.Spells (Term.varNames q.terms) ∧
      ∃ terms, (q.terms.map (.rename n.spelling)).mapM w.verbatim.term = .ok terms ∧
        ∃ target atom, w.target q.target = .ok target ∧ Writer.atom target terms = .ok atom ∧
          text = d.goal atom) := by
  constructor
  · intro r text h w n
    obtain ⟨head, hh, block, eq, each⟩ := blocks_of_renderRule h
    refine ⟨block, eq, fun i c hc => ?_⟩
    obtain ⟨body, hb, isBlock⟩ := each i c hc
    obtain ⟨spells, literals, added, rfl, renamed, bindings⟩ := Writer.joined_of_body hb
    rw [Writer.eq_compound_of_head hh] at isBlock
    exact ⟨spells, literals, added, isBlock, renamed, bindings⟩
  · intro q text h w n
    obtain ⟨⟨kept, apart⟩, terms, written, target, found, atom, made, eq⟩ := atom_of_renderQuery h
    have spells := (Namer.separates_of_renderAll apart).spells
    refine ⟨spells, terms, ?_, target, atom, found, made, eq⟩
    rw [Writer.terms_rename spells.rendered, written]

end Dialect

/-! ### A name in a foreign letter -/

/-- Whoever has a number that is smaller than the weight, by way of another variable. -/
def Rule.accented : Rule where
  head := .fact .person
  conditions := [⟨[
    .expr (.unify (.var ⟨"é", none⟩) (.var ⟨"number", none⟩)),
    .expr (.call "lt" [.var ⟨"é", none⟩, .var ⟨"weight", none⟩])], none⟩]
  overrides := .none

/-- Whose weight is the number? -/
def Query.accented : Query :=
  ⟨.schema (.fact .person), [.var ⟨"é", none⟩, .var ⟨"é", none⟩]⟩

theorem Dialect.renderRule_accented : prolog.renderRule .empty .accented =
    .ok "person(Number, Weight) :- _ = Number, _ < Weight." := by
  decide +kernel

theorem Dialect.renderQuery_accented :
    prolog.renderQuery .empty .accented = .ok "?- person(_, _)." := by
  decide +kernel

/-- The occurrences of a name that is no underscore are not joined: each is written as an anonymous
variable, in a rule and in a query. -/
theorem Dialect.accented_apart :
    (Rule.accented.conditions.flatMap Condition.varOccurrences).count "é" = 2 ∧
      (Term.varNames Query.accented.terms).count "é" = 2 ∧
      Namer.render ⟨.sanitize, "V_"⟩ "é" = .ok "_" ∧
      prolog.renderRule .empty .accented =
        .ok "person(Number, Weight) :- _ = Number, _ < Weight." ∧
      prolog.renderQuery .empty .accented = .ok "?- person(_, _)." := by
  refine ⟨by decide, by decide, by decide +kernel, renderRule_accented, renderQuery_accented⟩

theorem Dialect.joined_accented :
    (∃ text, prolog.renderRule .empty .accented = .ok text) ∧
      (∃ text, prolog.renderQuery .empty .accented = .ok text) ∧
      Namer.Spells ⟨.sanitize, "V_"⟩ ["number", "weight", "é", "number", "é", "weight"] ∧
      Namer.Spells ⟨.sanitize, "V_"⟩ ["é", "é"] := by
  obtain ⟨rules, queries⟩ := joined_of_render prolog .empty
  obtain ⟨_, _, each⟩ := rules .accented _ renderRule_accented
  obtain ⟨asked, -⟩ := queries .accented _ renderQuery_accented
  exact ⟨⟨_, renderRule_accented⟩, ⟨_, renderQuery_accented⟩, (each 0 _ rfl).1, asked⟩

end Clausal
