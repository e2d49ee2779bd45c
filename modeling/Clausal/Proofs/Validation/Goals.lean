import Clausal.Proofs.Registry.Lookups
import Clausal.Proofs.Rule.Nodes
import Clausal.Proofs.Validation.Exact

/-!
# The goals of valid rules

Main statement: `Validator.schema_of_disallowed_goal`. A literal has a goal for each operator and for
each reference in it, at any depth. In a valid rule no operator and no predicate of the library has
the name of an aggregate or a cut; only a schema that the view lets through can have one.
-/

namespace Clausal

def Referent.name : Referent → String
  | .schema s => s.name
  | .spec s => s.name

/-! ### Where nodes stand -/

namespace Expr

/-- What an expression is at its top. -/
def node? : Expr → Option Node
  | .var v => some (.var v.name)
  | .const c => some (.value c.value)
  | .call op args => some (.operator op args.length)
  | .ref r => some (.ref r)
  | .unify .. | .choice .. | .not _ => none

mutual

/-- What is listed for an expression stands in it. -/
theorem within_of_mem_nodes {b : Bool} {n : Node} :
    ∀ {e : Expr}, n ∈ e.nodes → ∃ u x, e.Within b u x ∧ x.node? = some n
  | .var _, h | .const _, h | .ref _, h => ⟨b, _, .self, (List.mem_singleton.1 h) ▸ rfl⟩
  | .call op args, h => by
    rcases List.mem_cons.1 h with rfl | h
    · exact ⟨b, _, .self, rfl⟩
    · obtain ⟨a, ha, u, x, within, eq⟩ := within_of_mem_nodesOfAll h
      exact ⟨u, x, .arg ha within, eq⟩
  | .unify lhs rhs, h => by
    rcases List.mem_append.1 h with h | h
    · obtain ⟨u, x, within, eq⟩ := within_of_mem_nodes h
      exact ⟨u, x, .lhs within, eq⟩
    · obtain ⟨u, x, within, eq⟩ := within_of_mem_nodes h
      exact ⟨u, x, .rhs within, eq⟩
  | .choice condition yes no, h => by
    rcases List.mem_append.1 h with h | h
    · rcases List.mem_append.1 h with h | h
      · obtain ⟨u, x, within, eq⟩ := within_of_mem_nodes h
        exact ⟨u, x, .condition within, eq⟩
      · obtain ⟨u, x, within, eq⟩ := within_of_mem_nodes h
        exact ⟨u, x, .yes within, eq⟩
    · obtain ⟨u, x, within, eq⟩ := within_of_mem_nodes h
      exact ⟨u, x, .no within, eq⟩
  | .not e, h => by
    obtain ⟨u, x, within, eq⟩ := within_of_mem_nodes (b := true) (e := e) h
    exact ⟨u, x, .not within, eq⟩

theorem within_of_mem_nodesOfAll {b : Bool} {n : Node} :
    ∀ {es : List Expr}, n ∈ nodesOfAll es →
      ∃ e ∈ es, ∃ u x, e.Within b u x ∧ x.node? = some n
  | [], h => absurd h List.not_mem_nil
  | e :: rest, h => by
    rcases List.mem_append.1 h with h | h
    · exact ⟨e, List.mem_cons_self, within_of_mem_nodes h⟩
    · obtain ⟨x, hx, within⟩ := within_of_mem_nodesOfAll h
      exact ⟨x, List.mem_cons_of_mem _ hx, within⟩

end

end Expr

namespace Validator

variable {v : Validator} {headId : String}

/-! ### Nodes without a fault -/

theorem disallowed_operator {l : Literal} (sound : ¬ v.LiteralFault headId l) {op : String}
    {arity : Nat} (h : .operator op arity ∈ l.nodes) :
    Text.lower (Text.trim op) ∉ disallowedOps := by
  intro bad
  cases l with
  | ref r => cases List.mem_singleton.1 h
  | expr e =>
    obtain ⟨u, x, within, eq⟩ := Expr.within_of_mem_nodes (b := false) h
    cases x <;> cases eq
    exact sound ⟨u, _, within, .disallowed bad⟩

theorem exists_refersTo_of_mem_nodes {l : Literal} (sound : ¬ v.LiteralFault headId l) {q : Ref}
    (h : .ref q ∈ l.nodes) : ∃ t, v.RefersTo q.schemaId t := by
  have sound : ¬ v.RefFault headId q := by
    intro fault
    cases l with
    | ref r =>
      cases List.mem_singleton.1 h
      exact sound fault
    | expr e =>
      obtain ⟨u, x, within, eq⟩ := Expr.within_of_mem_nodes (b := false) h
      cases x <;> cases eq
      exact sound ⟨u, _, within, .ref fault⟩
  obtain ⟨t, refers, -⟩ := exists_refersTo sound
  exact ⟨t, refers⟩

theorem not_literalFault_of_validate {r : Rule} (valid : v.validate r = .ok ()) {c : Condition}
    (hc : c ∈ r.conditions) {l : Literal} (hl : l ∈ c.literals) :
    ¬ v.LiteralFault r.head.id l := by
  intro fault
  obtain ⟨i, hi⟩ := List.mem_iff_getElem?.1 hc
  obtain ⟨j, hj⟩ := List.mem_iff_getElem?.1 hl
  have none := (checkConditions_finds v r.head 0 r.conditions).ok valid
  exact none _ (faultyAt_iff.1 (.literal hi hj fault))

/-- What a library declares is not named as an aggregate or a cut. -/
theorem not_disallowed_of_predicate? {l : Library} {id : String} {p : LibrarySpec}
    (h : l.predicate? id = some p) : Text.lower (Text.trim p.name) ∉ disallowedOps := by
  obtain ⟨e, he, rfl⟩ := List.mem_map.1 (Library.predicate?_sound h).1
  have checked := l.checked e he
  intro bad
  have disallowed : isDisallowed e.2.name = true := List.contains_iff_mem.2 bad
  unfold LibrarySpec.check at checked
  rw [if_pos disallowed] at checked
  split at checked <;> cases checked

/-! ### Goals -/

/-- The names of the goals of a literal: of the operators in it, and of what the references in it are
to. -/
inductive Goal (v : Validator) (l : Literal) : String → Prop
  | operator {name arity} (h : .operator name arity ∈ l.nodes) : Goal v l name
  | ref {q t} (h : .ref q ∈ l.nodes) (refers : v.RefersTo q.schemaId t) : Goal v l t.name

theorem mem_predicates_of_refersTo {id : String} {s : Schema} (h : v.RefersTo id (.schema s)) :
    s ∈ v.view.predicates := by
  cases h with
  | schema visible found =>
    obtain ⟨held, rfl⟩ := Registry.get_eq_ok_iff.1 found
    exact List.mem_filter.2 ⟨held, visible⟩

/-- **A goal of a valid rule that is named as an aggregate or a cut is a reference to a schema.**
Every reference in a valid rule is to something, and the operators and the predicates of the library
have other names; so no goal is named so if no schema is that the view lets through. -/
theorem schema_of_disallowed_goal {r : Rule} (valid : v.validate r = .ok ()) {c : Condition}
    (hc : c ∈ r.conditions) {l : Literal} (hl : l ∈ c.literals) :
    (∀ q, .ref q ∈ l.nodes → ∃ t, v.RefersTo q.schemaId t) ∧
      ∀ name, v.Goal l name → Text.lower (Text.trim name) ∈ disallowedOps →
        ∃ s ∈ v.view.predicates, s.name = name ∧
          ∃ q, .ref q ∈ l.nodes ∧ v.RefersTo q.schemaId (.schema s) := by
  have sound := not_literalFault_of_validate valid hc hl
  refine ⟨fun q hq => exists_refersTo_of_mem_nodes sound hq, fun name goal bad => ?_⟩
  cases goal with
  | operator h => exact absurd bad (disallowed_operator sound h)
  | @ref q t h refers =>
    cases t with
    | schema s => exact ⟨s, mem_predicates_of_refersTo refers, rfl, q, h, refers⟩
    | spec p =>
      cases refers with
      | spec _ _ found => exact absurd bad (not_disallowed_of_predicate? found)

end Validator

/-! ### A predicate with the name of the cut -/

/-- A predicate without arguments, which is named as the cut. -/
def FactSchema.cut : FactSchema where
  name := "!"
  signature := ⟨[], List.nodup_nil⟩
  keyFields := []
  keyFields_subset := List.nil_subset _
  description := none
  mergePolicy := .latest
  id := _
  id_eq := rfl

theorem FactSchema.id_cut :
    cut.id = "1c3bd7c0677710bc578d7f53350732f973ed4ac12faa5a5cfd090b23e9285bda" := by
  rw [id_eq_spelled, Identifier.ofText_compact]
  decide +kernel

/-- The registry of that predicate. -/
def Registry.cutting : Registry where
  predicates := [.fact .cut]
  increasing := List.pairwise_singleton ..
  ids_nodup := List.nodup_singleton _
  closed := by
    intro s hs
    cases List.mem_singleton.1 hs
    exact List.nil_subset _

/-- A rule for people whose body is that predicate. -/
def Rule.cutting : Rule where
  head := .fact .person
  conditions := [⟨[.ref ⟨FactSchema.cut.id, [], false⟩], none⟩]
  overrides := .none

namespace Validator

/-- All of the registry, and no library. -/
def cutting : Validator := ⟨.full .cutting, none⟩

theorem refersTo_cut : cutting.RefersTo FactSchema.cut.id (.schema (.fact .cut)) := by
  have found : Registry.cutting.get FactSchema.cut.id = .ok (.fact .cut) :=
    Registry.get_eq_ok_iff.2 ⟨.head _, rfl⟩
  have allowed : FactSchema.cut.id ∈ (View.full .cutting).allowed :=
    List.mem_filter.2 ⟨Registry.cutting.madeOf_predicates.mem_ids_iff.2 (.head _), rfl⟩
  exact .schema (List.contains_iff_mem.2 allowed) found

theorem goal_cut : cutting.Goal (.ref ⟨FactSchema.cut.id, [], false⟩) "!" :=
  .ref (t := .schema (.fact .cut)) (.head _) refersTo_cut

theorem validate_cutting : cutting.validate .cutting = .ok () := by
  have other : FactSchema.cut.id ≠ FactSchema.person.id := by
    rw [FactSchema.id_cut, FactSchema.id_person]
    decide +kernel
  have known : cutting.target? FactSchema.cut.id = some ⟨"!", []⟩ := by
    cases refersTo_cut with
    | schema visible found =>
      rw [target?, View.get, if_pos visible, found]
      rfl
  have ref (place : Place) :
      cutting.checkRef FactSchema.person.id place ⟨FactSchema.cut.id, [], false⟩ = .ok () := by
    rw [checkRef, if_neg other, known]
    rfl
  exact check_bind_eq_ok.2 ⟨rfl, check_bind_eq_ok.2 ⟨check_bind_eq_ok.2 ⟨ref _, rfl⟩, rfl⟩⟩

/-- A cut gets through the validation, as a predicate of the registry. -/
theorem cut_accepted :
    ∃ v r, validate v r = .ok () ∧ ∃ c ∈ r.conditions, ∃ l ∈ c.literals,
      v.Goal l "!" ∧ Text.lower (Text.trim "!") ∈ disallowedOps :=
  ⟨cutting, .cutting, validate_cutting, _, .head _, _, .head _, goal_cut, by decide +kernel⟩

theorem schema_of_disallowed_goal_cut :
    cutting.validate .cutting = .ok () ∧ ∃ c ∈ Rule.cutting.conditions, ∃ l ∈ c.literals,
      cutting.Goal l "!" ∧ Text.lower (Text.trim "!") ∈ disallowedOps ∧
        ∃ s ∈ cutting.view.predicates, s.name = "!" ∧
          ∃ q, .ref q ∈ l.nodes ∧ cutting.RefersTo q.schemaId (.schema s) := by
  have bad : Text.lower (Text.trim "!") ∈ disallowedOps := by decide +kernel
  exact ⟨validate_cutting, _, .head _, _, .head _, goal_cut, bad,
    (schema_of_disallowed_goal validate_cutting (.head _) (.head _)).2 _ goal_cut bad⟩

end Validator

end Clausal
