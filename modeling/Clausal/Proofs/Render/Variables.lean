import Clausal.Proofs.Render.Clause
import Clausal.Proofs.Render.Parts
import Clausal.Proofs.Render.Words
import Clausal.Proofs.Schema.Normal
import Mathlib.Data.List.Basic
import Mathlib.Data.List.Forall2

/-!
# The variables of a clause

Main statement: `Dialect.hygienic_of_renderRule`. A namer that gets through a list of names keeps
each one for its variable (`Namer.get?_renderAll`), and it gets through exactly when different names
are kept apart (`Namer.exists_renderAll_iff`). The variables of the literals are those for the names
in the condition, in the order of these (`Writer.vars_of_literals`), which is read off their parts;
those of the bindings that are added to a body are for names of the head or of the body.
-/

namespace Clausal

/-! ### Names that are kept apart -/

namespace Namer

variable {n : Namer}

/-- Every name becomes a variable, and different names become different ones. -/
structure Separates (n : Namer) (names : List String) : Prop where
  named : ∀ a ∈ names, ∃ v, n.render a = .ok v
  apart : ∀ a ∈ names, ∀ b ∈ names, a ≠ b → n.render a ≠ n.render b

/-- One step keeps the name for its variable, unless the name is kept for it already. -/
theorem exists_seen_of_renderInto {seen kept : SortedMap String String} {b : String}
    {rest : List String} (h : n.renderInto seen (b :: rest) = .ok kept) :
    (∃ v, n.render b = .ok v) ∧ ∃ seen', n.renderInto seen' rest = .ok kept ∧
      ∀ v a, seen'.get? v = some a ↔ seen.get? v = some a ∨ a = b ∧ n.render a = .ok v := by
  rw [renderInto] at h
  obtain ⟨v, rendered, later⟩ := bind_eq_ok.1 h
  refine ⟨⟨v, rendered⟩, ?_⟩
  cases held : seen.get? v with
  | some first =>
    simp only [held] at later
    split at later
    case isTrue same =>
      -- the name has come before, so nothing new is seen
      subst same
      refine ⟨seen, later, fun v' a => (or_iff_left_of_imp ?_).symm⟩
      rintro ⟨rfl, rendered'⟩
      cases rendered.symm.trans rendered'
      exact held
    case isFalse => cases later
  | none =>
    simp only [held] at later
    refine ⟨_, later, fun v' a => ?_⟩
    rw [SortedMap.get?_insert]
    split
    case isTrue same =>
      rw [Std.LawfulEqOrd.eq_of_compare same, held]
      constructor
      · rintro ⟨⟩
        exact .inr ⟨rfl, rendered⟩
      · rintro (⟨⟨⟩⟩ | ⟨rfl, -⟩)
        rfl
    case isFalse other =>
      refine (or_iff_left ?_).symm
      rintro ⟨rfl, rendered'⟩
      cases rendered.symm.trans rendered'
      exact other Std.ReflOrd.compare_self

/-- What is kept at the end is what was kept before and each further name for its variable. -/
theorem get?_renderInto {names : List String} :
    ∀ {seen kept : SortedMap String String}, n.renderInto seen names = .ok kept →
      (∀ a ∈ names, ∃ v, n.render a = .ok v) ∧
        ∀ v a, kept.get? v = some a ↔ seen.get? v = some a ∨ a ∈ names ∧ n.render a = .ok v := by
  induction names with
  | nil =>
    intro seen kept h
    cases h
    exact ⟨List.forall_mem_nil _, fun v a =>
      (or_iff_left fun ⟨mem, _⟩ => List.not_mem_nil mem).symm⟩
  | cons b rest ih =>
    intro seen kept h
    obtain ⟨named, seen', h, step⟩ := exists_seen_of_renderInto h
    obtain ⟨others, found⟩ := ih h
    refine ⟨List.forall_mem_cons.2 ⟨named, others⟩, fun v a => ?_⟩
    rw [found, step, List.mem_cons, or_and_right, or_assoc]

/-- The names that get through are kept for their variables, and nothing else is. -/
theorem get?_renderAll {names : List String} {kept : SortedMap String String}
    (h : n.renderAll names = .ok kept) {v a : String} :
    kept.get? v = some a ↔ a ∈ names ∧ n.render a = .ok v :=
  ((get?_renderInto h).2 v a).trans (or_iff_right nofun)

/-- Names whose variables are all found are kept apart. -/
theorem separates_of_renderAll {names : List String} {kept : SortedMap String String}
    (h : n.renderAll names = .ok kept) : n.Separates names := by
  obtain ⟨named, -⟩ := get?_renderInto h
  refine ⟨named, fun a ha b hb ne same => ?_⟩
  obtain ⟨v, rendered⟩ := named a ha
  have first : kept.get? v = some a := (get?_renderAll h).2 ⟨ha, rendered⟩
  have second : kept.get? v = some b := (get?_renderAll h).2 ⟨hb, same.symm.trans rendered⟩
  exact ne (Option.some.inj (first.symm.trans second))

/-- Names get through when they are kept apart, and what has been seen before is one of them. -/
theorem exists_renderInto {all : List String} (apart : n.Separates all) :
    ∀ {names : List String} {seen : SortedMap String String}, names ⊆ all →
      (∀ v a, seen.get? v = some a → a ∈ all ∧ n.render a = .ok v) →
      ∃ kept, n.renderInto seen names = .ok kept := by
  intro names
  induction names with
  | nil => exact fun {seen} _ _ => ⟨seen, rfl⟩
  | cons a rest ih =>
    intro seen sub held
    obtain ⟨here, later⟩ := List.cons_subset.1 sub
    obtain ⟨v, rendered⟩ := apart.named a here
    rw [renderInto, rendered, ok_bind]
    cases old : seen.get? v with
    | some first =>
      -- the variable is kept for a name of the list, which can only be this one
      obtain ⟨mem, rendered'⟩ := held v first old
      have same : first = a := by
        refine Decidable.byContradiction fun ne => apart.apart first mem a here ne ?_
        rw [rendered, rendered']
      dsimp only
      rw [if_pos same]
      exact ih later held
    | none =>
      refine ih later fun v' a' held' => ?_
      rw [SortedMap.get?_insert] at held'
      split at held'
      case isTrue same =>
        cases held'
        rw [Std.LawfulEqOrd.eq_of_compare same]
        exact ⟨here, rendered⟩
      case isFalse => exact held v' a' held'

/-- Names get through exactly if they are kept apart. -/
theorem exists_renderAll_iff {names : List String} :
    (∃ kept, n.renderAll names = .ok kept) ↔ n.Separates names := by
  constructor
  · rintro ⟨kept, h⟩
    exact separates_of_renderAll h
  · intro apart
    exact exists_renderInto apart (List.Subset.refl _) fun v a held => nomatch held

theorem Separates.of_subset {names names' : List String} (h : n.Separates names)
    (sub : names' ⊆ names) : n.Separates names' :=
  ⟨fun a ha => h.named a (sub ha), fun a ha b hb => h.apart a (sub ha) b (sub hb)⟩

end Namer

theorem Namer.Separates.right {n : Namer} {names names' : List String}
    (h : n.Separates (names ++ names')) : n.Separates names' :=
  h.of_subset (List.subset_append_right names names')

theorem RelSchema.headVar_mem_headNames (r : RelSchema) (side : Side) :
    side.headVar ∈ (Schema.rel r).headNames := by
  cases side <;> simp [Schema.headNames]

/-! ### Names in a condition -/

theorem Expr.mem_firstOccurrences {name : String} {names : List String} :
    ∀ {seen : List String}, name ∈ firstOccurrences seen names ↔ name ∈ names ∧ name ∉ seen := by
  induction names with
  | nil => simp [firstOccurrences]
  | cons a rest ih =>
    intro seen
    rw [firstOccurrences]
    split
    case isTrue held =>
      rw [ih, List.mem_cons]
      constructor
      · exact fun ⟨mem, new⟩ => ⟨.inr mem, new⟩
      · rintro ⟨rfl | mem, new⟩
        · exact absurd held new
        · exact ⟨mem, new⟩
    case isFalse fresh =>
      rw [List.mem_cons, ih, List.mem_cons, List.mem_cons]
      constructor
      · rintro (rfl | ⟨mem, new⟩)
        · exact ⟨.inl rfl, fresh⟩
        · exact ⟨.inr mem, fun held => new (.inr held)⟩
      · rintro ⟨rfl | mem, new⟩
        · exact .inl rfl
        · by_cases same : name = a
          · exact .inl same
          · exact .inr ⟨mem, fun held => held.elim same new⟩

/-- The names of the variables of a literal at any depth, each as often as it occurs. -/
def Literal.varOccurrences : Literal → List String
  | .ref r => Term.varNames r.terms
  | .expr e => e.varOccurrences

def Condition.varOccurrences (c : Condition) : List String :=
  c.literals.flatMap Literal.varOccurrences

theorem Literal.mem_varNames {l : Literal} {name : String} :
    name ∈ l.varNames ↔ name ∈ l.varOccurrences := by
  cases l with
  | ref r => exact Iff.rfl
  | expr e =>
    rw [varNames, varOccurrences, Expr.varNames, Expr.mem_firstOccurrences]
    exact and_iff_left List.not_mem_nil

theorem Condition.mem_varNames {c : Condition} {name : String} :
    name ∈ c.varNames ↔ name ∈ c.varOccurrences := by
  simp only [varNames, varOccurrences, List.mem_flatMap, Literal.mem_varNames]

/-! ### Variables of phrases -/

namespace Phrase

mutual

/-- The variables of a phrase are those among its parts. -/
theorem vars_eq_filterMap : ∀ p : Phrase, p.vars = p.parts.filterMap Part.var?
  | .var _ | .word _ => rfl
  | .unify lhs rhs | .between _ lhs rhs => by
    rw [vars, vars_eq_filterMap lhs, vars_eq_filterMap rhs, ← List.filterMap_append]
    rfl
  | .apply _ args => varsOfAll_eq_filterMap args
  | .choice condition yes no => by
    rw [vars, vars_eq_filterMap condition, vars_eq_filterMap yes, vars_eq_filterMap no,
      ← List.filterMap_append, ← List.filterMap_append]
    rfl
  | .not e => vars_eq_filterMap e
  | .negated atom => vars_eq_filterMap atom

theorem varsOfAll_eq_filterMap :
    ∀ ps : List Phrase, varsOfAll ps = (partsOfAll ps).filterMap Part.var?
  | [] => rfl
  | p :: rest => by
    rw [varsOfAll, vars_eq_filterMap p, varsOfAll_eq_filterMap rest, ← List.filterMap_append]
    rfl

end

theorem varsOfAll_append (ps qs : List Phrase) :
    varsOfAll (ps ++ qs) = varsOfAll ps ++ varsOfAll qs := by
  simp only [varsOfAll_eq_flatMap, List.flatMap_append]

theorem varsOfAll_var (names : List String) : varsOfAll (names.map .var) = names := by
  rw [varsOfAll_eq_flatMap, List.flatMap_map]
  exact List.flatMap_singleton' names

theorem vars_atomPhrase {s : Schema} {terms : List Phrase} {p : Phrase}
    (h : s.atomPhrase terms = .ok p) : p.vars = varsOfAll terms := by
  cases s with
  | fact f =>
    cases h
    rfl
  | rel r =>
    rw [Schema.atomPhrase, RelSchema.atomPhrase] at h
    split at h
    · cases h
    · cases h
      simp only [vars, varsOfAll, ← varsOfAll_append]
      rw [← List.drop_drop, List.take_append_drop, List.take_append_drop]

end Phrase

def Node.varNames : Node → List String
  | .var name => [name]
  | .ref r => Term.varNames r.terms
  | .value _ | .operator _ _ => []

namespace Expr

mutual

theorem varOccurrences_eq_flatMap : ∀ e : Expr, e.varOccurrences = e.nodes.flatMap Node.varNames
  | .var _ | .const _ => rfl
  | .ref r => (List.append_nil _).symm
  | .unify lhs rhs => by
    rw [varOccurrences, varOccurrences_eq_flatMap lhs, varOccurrences_eq_flatMap rhs,
      ← List.flatMap_append]
    rfl
  | .call _ args => varOccurrencesOfAll_eq_flatMap args
  | .choice condition yes no => by
    rw [varOccurrences, varOccurrences_eq_flatMap condition, varOccurrences_eq_flatMap yes,
      varOccurrences_eq_flatMap no, ← List.flatMap_append, ← List.flatMap_append]
    rfl
  | .not e => varOccurrences_eq_flatMap e

theorem varOccurrencesOfAll_eq_flatMap :
    ∀ es : List Expr, varOccurrencesOfAll es = (nodesOfAll es).flatMap Node.varNames
  | [] => rfl
  | e :: rest => by
    rw [varOccurrencesOfAll, varOccurrences_eq_flatMap e, varOccurrencesOfAll_eq_flatMap rest,
      ← List.flatMap_append]
    rfl

end

end Expr

theorem Literal.varOccurrences_eq_flatMap (l : Literal) :
    l.varOccurrences = l.nodes.flatMap Node.varNames := by
  cases l with
  | ref r => exact (List.append_nil _).symm
  | expr e => exact e.varOccurrences_eq_flatMap

theorem Condition.varOccurrences_eq_flatMap (c : Condition) :
    c.varOccurrences = c.nodes.flatMap Node.varNames := by
  rw [varOccurrences, nodes, List.flatMap_assoc]
  exact List.flatMap_congr fun l _ => l.varOccurrences_eq_flatMap

namespace Writer

variable {w : Writer}

theorem vars_of_terms {terms : List Term} {ps : List Phrase}
    (h : terms.mapM w.termPhrase = .ok ps) :
    (Term.varNames terms).mapM w.var = .ok (Phrase.varsOfAll ps) := by
  induction terms generalizing ps with
  | nil =>
    cases h
    rfl
  | cons t rest ih =>
    obtain ⟨p, qs, first, others, rfl⟩ := mapM_cons_eq_ok.1 h
    cases t with
    | var v =>
      obtain ⟨x, named, rfl⟩ := map_eq_ok.1 first
      exact mapM_cons_eq_ok.2 ⟨x, _, named, ih others, rfl⟩
    | const c =>
      obtain ⟨x, -, rfl⟩ := map_eq_ok.1 first
      rw [Phrase.varsOfAll]
      exact ih others

/-- The variables among the parts for a node are those for the names in it. -/
theorem vars_of_partsOf {n : Node} {ps : List Part} (h : w.partsOf n = .ok ps) :
    n.varNames.mapM w.var = .ok (ps.filterMap Part.var?) := by
  cases n with
  | var name =>
    obtain ⟨x, named, rfl⟩ := map_eq_ok.1 h
    exact mapM_cons_eq_ok.2 ⟨x, [], named, rfl, rfl⟩
  | value v =>
    obtain ⟨x, -, rfl⟩ := map_eq_ok.1 h
    rfl
  | operator op arity =>
    cases h
    rw [Phrase.operatorPart, Node.varNames]
    cases infixSymbol? op arity <;> rfl
  | ref r =>
    obtain ⟨p, written, rfl⟩ := map_eq_ok.1 h
    obtain ⟨s, terms, -, each, written⟩ := exists_of_refPhrase written
    rw [← Phrase.vars_eq_filterMap, Phrase.vars_atomPhrase written]
    exact vars_of_terms each

theorem vars_of_partsOfAll {nodes : List Node} {ps : List Part}
    (h : w.partsOfAll nodes = .ok ps) :
    (nodes.flatMap Node.varNames).mapM w.var = .ok (ps.filterMap Part.var?) := by
  induction nodes generalizing ps with
  | nil =>
    cases h
    rfl
  | cons n rest ih =>
    obtain ⟨first, later, here, others, rfl⟩ := partsOfAll_cons_eq_ok.1 h
    rw [List.filterMap_append, List.flatMap_cons]
    exact mapM_append_eq_ok (vars_of_partsOf here) (ih others)

/-- The variables of the literals are those for the names in the condition, in the order of these. -/
theorem vars_of_literals {c : Condition} {ps : List Phrase}
    (h : c.literals.mapM w.literalPhrase = .ok ps) :
    c.varOccurrences.mapM w.var = .ok (Phrase.varsOfAll ps) := by
  rw [c.varOccurrences_eq_flatMap, Phrase.varsOfAll_eq_filterMap]
  exact vars_of_partsOfAll (parts_of_literals h)

theorem vars_of_headPhrase {s : Schema} {p : Phrase} (h : w.headPhrase s = .ok p) :
    s.headNames.mapM w.var = .ok p.vars := by
  obtain ⟨vars, rendered, rfl⟩ := exists_of_headPhrase h
  rw [Phrase.vars, Phrase.varsOfAll_var, rendered]

/-- A binding has the variable for a side and key variables that are bound. -/
theorem vars_of_bindingPhrase {r : RelSchema} {condition : Nat} {bound : List String} {side : Side}
    {added : Option Phrase} (h : w.bindingPhrase r condition bound side = .ok added) :
    ∀ p ∈ added, ∀ v ∈ p.vars, w.var side.headVar = .ok v ∨ v ∈ bound := by
  obtain ⟨x, rendered, ⟨-, rfl⟩ | ⟨-, keyVars, -, known, rfl⟩⟩ := exists_of_bindingPhrase h
  · exact fun _ hp => absurd hp (Option.not_mem_none _)
  · rintro _ ⟨⟩ v hv
    rw [Phrase.vars, Phrase.vars, Phrase.vars, Phrase.varsOfAll_var] at hv
    rcases List.mem_cons.1 hv with rfl | hv
    · exact .inl rendered
    · exact .inr (known hv)

/-- The variables of the bindings are for the sides or for names in the condition. -/
theorem vars_of_bindingPhrases {r : RelSchema} {condition : Nat} {c : Condition}
    {added : List Phrase} (h : w.bindingPhrases r condition c = .ok added) :
    ∀ v ∈ Phrase.varsOfAll added,
      ∃ name ∈ (Schema.rel r).headNames ++ c.varOccurrences, w.var name = .ok v := by
  obtain ⟨bound, rendered, h⟩ := bind_eq_ok.1 h
  obtain ⟨sub, first, h⟩ := bind_eq_ok.1 h
  obtain ⟨obj, second, h⟩ := bind_eq_ok.1 h
  cases h
  have named {side : Side} {v : String} (hv : w.var side.headVar = .ok v ∨ v ∈ bound) :
      ∃ name ∈ (Schema.rel r).headNames ++ c.varOccurrences, w.var name = .ok v := by
    rcases hv with hv | hv
    · exact ⟨_, List.mem_append_left _ (r.headVar_mem_headNames side), hv⟩
    · obtain ⟨name, mem, eq⟩ := exists_of_mem_mapM rendered v hv
      exact ⟨name, List.mem_append_right _ (Condition.mem_varNames.1 mem), eq⟩
  intro v hv
  rw [Phrase.varsOfAll_eq_flatMap] at hv
  obtain ⟨p, hp, hv⟩ := List.mem_flatMap.1 hv
  rcases List.mem_append.1 hp with hp | hp
  · exact named (vars_of_bindingPhrase first p (Option.mem_toList.1 hp) v hv)
  · exact named (vars_of_bindingPhrase second p (Option.mem_toList.1 hp) v hv)

theorem vars_of_addedPhrases {s : Schema} {condition : Nat} {c : Condition} {added : List Phrase}
    (h : w.addedPhrases s condition c = .ok added) :
    ∀ v ∈ Phrase.varsOfAll added, ∃ name ∈ s.headNames ++ c.varOccurrences, w.var name = .ok v := by
  unfold addedPhrases at h
  split at h
  · exact vars_of_bindingPhrases h
  · cases h
    exact fun v hv => absurd hv List.not_mem_nil

/-- The names of head and body are kept apart, and the variables of the body are for them. -/
theorem vars_of_bodyPhrases {s : Schema} {condition : Nat} {c : Condition} {body : List Phrase}
    (h : w.bodyPhrases s condition c = .ok body) :
    w.config.namer.Separates (s.headNames ++ c.varOccurrences) ∧
      ∀ v ∈ Phrase.varsOfAll body, ∃ name ∈ s.headNames ++ c.varOccurrences, w.var name = .ok v := by
  obtain ⟨⟨kept, apart⟩, literals, added, written, bindings, rfl⟩ := exists_of_bodyPhrases h
  constructor
  · refine (Namer.separates_of_renderAll apart).of_subset fun name hn => ?_
    rcases List.mem_append.1 hn with hn | hn
    · exact List.mem_append_left _ hn
    · exact List.mem_append_right _ (Condition.mem_varNames.2 hn)
  · intro v hv
    rw [Phrase.varsOfAll_append] at hv
    rcases List.mem_append.1 hv with hv | hv
    · obtain ⟨name, mem, eq⟩ := exists_of_mem_mapM (vars_of_literals written) v hv
      exact ⟨name, List.mem_append_right _ mem, eq⟩
    · exact vars_of_addedPhrases bindings v hv

end Writer

/-! ### Clauses -/

/-- The names of a clause are kept apart, and it has no variables but those for its names. -/
structure Clause.Hygienic (n : Namer) (names : List String) (c : Clause) : Prop where
  separates : n.Separates names
  named : ∀ v ∈ c.vars, isVariable v.toList = true ∧ ∃ name ∈ names, n.render name = .ok v

namespace Dialect

theorem forall₂_of_clausesFrom {lower : Nat → Condition → Except RenderError Clause}
    {R : Condition → Clause → Prop}
    (each : ∀ index c clause, lower index c = .ok clause → R c clause) :
    ∀ {index : Nat} {conditions : List Condition} {clauses : List Clause},
      clausesFrom lower index conditions = .ok clauses → List.Forall₂ R conditions clauses := by
  intro index conditions
  induction conditions generalizing index with
  | nil =>
    intro clauses h
    cases h
    exact .nil
  | cons c rest ih =>
    intro clauses h
    obtain ⟨first, written, h⟩ := bind_eq_ok.1 h
    obtain ⟨others, later, h⟩ := bind_eq_ok.1 h
    cases h
    exact .cons (each _ _ _ written) (ih later)

/-- The clauses of a rule are under one head, each with the body of its condition. -/
theorem exists_of_clauses {d : Dialect} {context : RenderContext} {r : Rule}
    {clauses : List Clause} (h : d.clauses context r = .ok clauses) :
    ∃ head, (Writer.forRule context d.name d.choiceStyle r).headPhrase r.head = .ok head ∧
      List.Forall₂ (fun c clause => ∃ index body above opening,
        (Writer.forRule context d.name d.choiceStyle r).bodyPhrases r.head index c = .ok body ∧
          clause = ⟨above, opening, head, body⟩) r.conditions clauses := by
  cases d with
  | prolog =>
    obtain ⟨head, hh, h⟩ := bind_eq_ok.1 h
    refine ⟨head, hh, forall₂_of_clausesFrom ?_ h⟩
    intro index c clause written
    obtain ⟨body, hb, written⟩ := bind_eq_ok.1 written
    cases written
    exact ⟨index, body, _, _, hb, rfl⟩
  | problog =>
    obtain ⟨head, hh, h⟩ := bind_eq_ok.1 h
    refine ⟨head, hh, forall₂_of_clausesFrom ?_ h⟩
    intro index c clause written
    obtain ⟨⟨p, origin⟩, -, written⟩ := bind_eq_ok.1 written
    obtain ⟨body, hb, written⟩ := bind_eq_ok.1 written
    cases written
    exact ⟨index, body, _, _, hb, rfl⟩
  | cypher | datalog => cases h

variable {w : Writer} {s : Schema} {head : Phrase}

theorem hygienic_of_phrases (hh : w.headPhrase s = .ok head) {index : Nat} {c : Condition}
    {body : List Phrase} (hb : w.bodyPhrases s index c = .ok body) (above : List String)
    (opening : String) :
    Clause.Hygienic w.config.namer (s.headNames ++ c.varOccurrences)
      ⟨above, opening, head, body⟩ := by
  obtain ⟨separates, named⟩ := Writer.vars_of_bodyPhrases hb
  refine ⟨separates, fun v hv => ?_⟩
  obtain ⟨name, mem, eq⟩ : ∃ name ∈ s.headNames ++ c.varOccurrences, w.var name = .ok v := by
    rcases List.mem_append.1 hv with hv | hv
    · obtain ⟨name, mem, eq⟩ := exists_of_mem_mapM (Writer.vars_of_headPhrase hh) v hv
      exact ⟨name, List.mem_append_left _ mem, eq⟩
    · exact named v hv
  exact ⟨Namer.isVariable_of_render eq, name, mem, eq⟩

/-- The clauses of a rule are hygienic, each for the names of the head and of its condition. -/
theorem hygienic_of_clauses {d : Dialect} {context : RenderContext} {r : Rule}
    {clauses : List Clause} (h : d.clauses context r = .ok clauses) :
    List.Forall₂ (fun c clause => clause.Hygienic (context.config.merged r.overrides).namer
      (r.head.headNames ++ c.varOccurrences)) r.conditions clauses := by
  obtain ⟨head, hh, each⟩ := exists_of_clauses h
  refine each.imp ?_
  rintro c clause ⟨index, body, above, opening, hb, rfl⟩
  exact hygienic_of_phrases hh hb above opening

/-- **A rule that is written has hygienic clauses**, one for each condition. Different names in the
head and in the condition, at any depth, become different variables; and each variable of the head,
of a literal and of a binding that is added is a valid one, for one of these names. -/
theorem hygienic_of_renderRule {d : Dialect} {context : RenderContext} (bare : context.IsBare)
    {r : Rule} {text : String} (written : d.renderRule context r = .ok text) :
    ∃ clauses, d.clauses context r = .ok clauses ∧
      text = lines (clauses.flatMap (Clause.lines d.choiceStyle)) ∧
      List.Forall₂ (fun c clause => clause.Hygienic (context.config.merged r.overrides).namer
        (r.head.headNames ++ c.varOccurrences)) r.conditions clauses := by
  rw [renderRule_eq bare] at written
  obtain ⟨clauses, h, rfl⟩ := map_eq_ok.1 written
  exact ⟨clauses, h, rfl, hygienic_of_clauses h⟩

end Dialect

/-! ### Who has the greater number -/

/-- Whoever has the smaller number has known the other since 1999. -/
def Rule.seniority : Rule where
  head := .rel .knows
  conditions := [⟨[
    .expr (.call "lt" [.var ⟨"sub_number", none⟩, .var ⟨"obj_number", none⟩]),
    .expr (.unify (.var ⟨"since", none⟩) (.const ⟨.int 1999, none⟩))], none⟩]
  overrides := .none

theorem Dialect.renderRule_seniority : prolog.renderRule .empty .seniority =
    .ok ("knows(Sub, Obj, Since) :- Sub_number < Obj_number, Since = 1999, " ++
      "Sub = person(Sub_number), Obj = person(Obj_number).") := by
  decide +kernel

theorem Dialect.hygienic_seniority :
    RenderContext.empty.IsBare ∧ (∃ text, prolog.renderRule .empty .seniority = .ok text) ∧
    ∃ clauses, prolog.clauses .empty .seniority = .ok clauses ∧
      List.Forall₂ (fun c clause => clause.Hygienic ⟨.sanitize, "V_"⟩
        (["Sub", "Obj", "since"] ++ c.varOccurrences)) Rule.seniority.conditions clauses := by
  have bare := RenderContext.isBare_empty
  obtain ⟨clauses, h, -, hygienic⟩ := hygienic_of_renderRule bare renderRule_seniority
  exact ⟨bare, ⟨_, renderRule_seniority⟩, clauses, h, hygienic⟩

end Clausal
