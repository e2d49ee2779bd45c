import Clausal.Proofs.Outcomes
import Clausal.Proofs.Registry.Scopes
import Clausal.Validation.Basic

/-!
# What can be built is what is valid

Main statement: `Validator.valid_iff_constructed`. Terms are checked against the arguments of a
predicate when a reference or a query is built, and once more when a rule is validated. Both checks
let the same terms through, and both stop at the same obstacle (`Schema.Obstructs`), which each of
them words in its own way.
-/

namespace Clausal

/-! ### Obstacles -/

/-- Why a term cannot stand for an argument. -/
inductive Mismatch
  /-- It is a variable without a name. -/
  | unnamed
  /-- It is a constant that notes another datatype. -/
  | noted (datatype : String)
  /-- It is a constant whose value is not of the datatype. -/
  | value (v : Value)

/-- A term cannot stand for an argument for a reason. Of the two reasons that there can be for a
constant, the noted datatype comes first. -/
inductive Term.Mismatches (a : Arg) : Term → Mismatch → Prop
  | unnamed {x} (empty : Text.trim x.name = "") : Mismatches a (.var x) .unnamed
  | noted {c datatype} (note : c.datatype = some datatype)
    (ne : Datatype.normalize datatype ≠ Datatype.normalize a.datatype) :
    Mismatches a (.const c) (.noted datatype)
  | value {c} (agree : ∀ datatype ∈ c.datatype,
      Datatype.normalize datatype = Datatype.normalize a.datatype)
    (misfit : c.value.fits a.datatype = false) : Mismatches a (.const c) (.value c.value)

/-- What keeps terms from standing for the arguments of a predicate. -/
inductive Obstacle
  | arity (expected found : Nat)
  | term (position : Nat) (a : Arg) (m : Mismatch)

/-- What keeps terms from standing for the arguments of a schema: their number, or else the first
one among them that cannot stand for its argument. -/
inductive Schema.Obstructs (s : Schema) (terms : List Term) : Obstacle → Prop
  | arity (ne : terms.length ≠ s.arity) : Obstructs s terms (.arity s.arity terms.length)
  | term {i t a m} (eq : terms.length = s.arity) (ht : terms[i]? = some t)
    (ha : s.signature.args[i]? = some a) (mismatch : t.Mismatches a m)
    (first : ∀ j < i, ∀ t' a', terms[j]? = some t' → s.signature.args[j]? = some a' →
      ∀ m', ¬ t'.Mismatches a' m') : Obstructs s terms (.term i a m)

namespace Mismatch

/-- The error for it where a reference or a query is built. -/
def schemaError (predicate : String) (position : Nat) (a : Arg) : Mismatch → SchemaError
  | unnamed => .emptyVariableName position predicate
  | noted datatype => .datatypeMismatch predicate position a.datatype datatype
  | value v => .valueTypeMismatch predicate a.name a.datatype v.display

/-- The error for it where a rule is validated. -/
def validationError (place : Place) (predicate : String) (position : Nat) (a : Arg) :
    Mismatch → ValidationError
  | unnamed => .emptyVariable place
  | noted datatype => .typeMismatch place predicate position a.datatype datatype
  | value v => .typeMismatch place predicate position a.datatype v.datatype

end Mismatch

namespace Obstacle

def schemaError (s : Schema) : Obstacle → SchemaError
  | arity expected found => .arityMismatch s.name expected found
  | term position a m => m.schemaError s.name position a

def validationError (place : Place) (s : Schema) : Obstacle → ValidationError
  | arity expected found => .arityMismatch place s.name expected found
  | term position a m => m.validationError place s.name position a

end Obstacle

/-! ### Terms, one by one -/

/-- The slots of arguments, each of which wants a datatype. -/
def Arg.slots (args : List Arg) : List (Option String) := args.map fun a => some a.datatype

/-- Fails when a term does not fit a datatype. -/
def Validator.checkTerm (place : Place) (predicate : String) (position : Nat) (datatype : String) :
    Term → Except ValidationError Unit
  | .var x => checkVar place x.name
  | .const c => checkConst place predicate position datatype c

theorem Validator.checkTerms_cons (place : Place) (predicate : String) (position : Nat) (t : Term)
    (datatype : String) (rest : List (Term × Option String)) :
    checkTerms place predicate position ((t, some datatype) :: rest) = (do
      checkTerm place predicate position datatype t
      checkTerms place predicate (position + 1) rest) := by
  cases t <;> rfl

namespace Term

variable (predicate : String) (position : Nat) (place : Place)

/-- Both checks let a variable stand for any argument if it has a name. -/
theorem check_var_cases (x : Var) (a : Arg) :
    ((∀ m, ¬ (Term.var x).Mismatches a m) ∧ (Term.var x).check predicate position a = .ok () ∧
      Validator.checkTerm place predicate position a.datatype (.var x) = .ok ()) ∨
    ∃ m, (Term.var x).Mismatches a m ∧
      (Term.var x).check predicate position a = .error (m.schemaError predicate position a) ∧
      Validator.checkTerm place predicate position a.datatype (.var x) =
        .error (m.validationError place predicate position a) := by
  by_cases empty : Text.trim x.name = ""
  · exact .inr ⟨.unnamed, .unnamed empty, if_pos empty, if_pos empty⟩
  · refine .inl ⟨?_, if_neg empty, if_neg empty⟩
    rintro _ ⟨h⟩
    exact empty h

/-- Both checks compare the noted datatype of a constant first and its value then. -/
theorem check_const_cases (c : Const) (a : Arg) :
    ((∀ m, ¬ (Term.const c).Mismatches a m) ∧
      (Term.const c).check predicate position a = .ok () ∧
      Validator.checkTerm place predicate position a.datatype (.const c) = .ok ()) ∨
    ∃ m, (Term.const c).Mismatches a m ∧
      (Term.const c).check predicate position a = .error (m.schemaError predicate position a) ∧
      Validator.checkTerm place predicate position a.datatype (.const c) =
        .error (m.validationError place predicate position a) := by
  -- both checks look at the datatype first and at the value second
  rw [check, Record.checkValue, Validator.checkTerm, Validator.checkConst]
  have noted : c.datatype.any (!Datatype.agree · a.datatype) = true ↔
      ∃ datatype ∈ c.datatype, Datatype.normalize datatype ≠ Datatype.normalize a.datatype := by
    cases c.datatype <;> simp [Datatype.agree]
  by_cases other : c.datatype.any (!Datatype.agree · a.datatype) = true
  · obtain ⟨datatype, note, ne⟩ := noted.1 other
    rw [if_pos other, if_pos other, Option.mem_def.1 note]
    exact .inr ⟨.noted datatype, .noted note ne, rfl, rfl⟩
  · have agree : ∀ datatype ∈ c.datatype,
        Datatype.normalize datatype = Datatype.normalize a.datatype := fun datatype note =>
      Decidable.byContradiction fun ne => other (noted.2 ⟨datatype, note, ne⟩)
    rw [if_neg other, if_neg other]
    cases fits : c.value.fits a.datatype with
    | true =>
      refine .inl ⟨?_, rfl, rfl⟩
      rintro _ (_ | ⟨note, ne⟩ | ⟨-, misfit⟩)
      · exact ne (agree _ note)
      · exact absurd (fits.symm.trans misfit) (by decide)
    | false => exact .inr ⟨.value c.value, .value agree fits, rfl, rfl⟩

/-- Both checks let a term stand for an argument, or both stop at it for the same reason. -/
theorem check_cases (t : Term) (a : Arg) :
    ((∀ m, ¬ t.Mismatches a m) ∧ t.check predicate position a = .ok () ∧
      Validator.checkTerm place predicate position a.datatype t = .ok ()) ∨
    ∃ m, t.Mismatches a m ∧
      t.check predicate position a = .error (m.schemaError predicate position a) ∧
      Validator.checkTerm place predicate position a.datatype t =
        .error (m.validationError place predicate position a) :=
  match t with
  | .var x => check_var_cases predicate position place x a
  | .const c => check_const_cases predicate position place c a

/-- Both checks let terms stand for arguments from a position on, or both stop at the first one of
them that cannot, for the same reason. -/
theorem checkFrom_cases (l : List (Term × Arg)) (position : Nat) :
    ((∀ q ∈ l, ∀ m, ¬ q.1.Mismatches q.2 m) ∧ checkFrom predicate position l = .ok () ∧
      Validator.checkTerms place predicate position (l.map (Prod.map id (some ·.datatype))) =
        .ok ()) ∨
    ∃ i t a m, l[i]? = some (t, a) ∧ Mismatches a t m ∧
      (∀ j < i, ∀ q, l[j]? = some q → ∀ m', ¬ q.1.Mismatches q.2 m') ∧
      checkFrom predicate position l = .error (m.schemaError predicate (position + i) a) ∧
      Validator.checkTerms place predicate position (l.map (Prod.map id (some ·.datatype))) =
        .error (m.validationError place predicate (position + i) a) := by
  induction l generalizing position with
  | nil => exact .inl ⟨fun _ h => absurd h List.not_mem_nil, rfl, rfl⟩
  | cons q rest ih =>
    obtain ⟨t, a⟩ := q
    rw [checkFrom, List.map_cons, Prod.map_apply, id_eq, Validator.checkTerms_cons]
    rcases check_cases predicate position place t a with
      ⟨stands, built, valid⟩ | ⟨m, mismatch, unbuilt, invalid⟩
    · rw [built, valid, ok_bind, ok_bind]
      rcases ih (position + 1) with
        ⟨others, built', valid'⟩ | ⟨i, t', a', m, found, mismatch, first, unbuilt, invalid⟩
      · exact .inl ⟨List.forall_mem_cons.2 ⟨stands, others⟩, built', valid'⟩
      · -- positions in the rest are one less
        have next : position + 1 + i = position + (i + 1) := by omega
        rw [next] at unbuilt invalid
        refine .inr ⟨i + 1, t', a', m, found, mismatch, ?_, unbuilt, invalid⟩
        rintro (_ | j) less q hq
        · cases hq
          exact stands
        · exact first j (Nat.lt_of_succ_lt_succ less) q hq
    · rw [unbuilt, invalid]
      exact .inr ⟨0, t, a, m, rfl, mismatch, fun _ h => absurd h (Nat.not_lt_zero _), rfl, rfl⟩

/-- Terms are let through exactly if there is one for each argument, which it can stand for. -/
theorem checkAll_eq_ok_iff {s : Schema} {terms : List Term} :
    checkAll s terms = .ok () ↔
      terms.length = s.arity ∧ ∀ q ∈ terms.zip s.signature.args, ∀ m, ¬ q.1.Mismatches q.2 m := by
  rw [checkAll]
  by_cases eq : terms.length = s.arity
  · rw [if_neg (not_not.2 eq), and_iff_right eq]
    rcases checkFrom_cases s.name ⟨s.name, 0, 0⟩ (terms.zip s.signature.args) 0 with
      ⟨stand, built, -⟩ | ⟨i, t, a, m, found, mismatch, -, unbuilt, -⟩
    · exact iff_of_true built stand
    · rw [unbuilt]
      exact iff_of_false nofun fun stand => stand _ (List.mem_of_getElem? found) m mismatch
  · rw [if_pos eq]
    exact iff_of_false nofun fun h => eq h.1

end Term

/-! ### References, queries and rules -/

namespace Validator

variable {v : Validator} {s : Schema} {terms : List Term}

/-- A reference to a schema that the view lets through is checked as terms are when it is built. -/
theorem checkRef_cases (visible : v.view.get s.id = .ok s) {headId : String} (other : headId ≠ s.id)
    (place : Place) (terms : List Term) :
    ((∀ o, ¬ s.Obstructs terms o) ∧ Term.checkAll s terms = .ok () ∧
      v.checkRef headId place (.unchecked s.id terms) = .ok ()) ∨
    ∃ o, s.Obstructs terms o ∧ Term.checkAll s terms = .error (o.schemaError s) ∧
      v.checkRef headId place (.unchecked s.id terms) = .error (o.validationError place s) := by
  have target : v.target? s.id = some ⟨s.name, Arg.slots s.signature.args⟩ := by
    rw [target?, visible]
    rfl
  have slots : (Arg.slots s.signature.args).length = s.arity := List.length_map _
  have checked : v.checkRef headId place (.unchecked s.id terms) =
      if terms.length ≠ s.arity then .error (.arityMismatch place s.name s.arity terms.length)
      else checkTerms place s.name 0 (terms.zip (Arg.slots s.signature.args)) := by
    rw [checkRef, Ref.unchecked, if_neg other.symm, target]
    simp only [slots]
  rw [checked, Term.checkAll]
  by_cases eq : terms.length = s.arity
  · rw [if_neg (not_not.2 eq), if_neg (not_not.2 eq), Arg.slots, List.zip_map_right]
    rcases Term.checkFrom_cases s.name place (terms.zip s.signature.args) 0 with
      ⟨stand, built, valid⟩ | ⟨i, t, a, m, found, mismatch, first, unbuilt, invalid⟩
    · refine .inl ⟨?_, built, valid⟩
      rintro _ (ne | ⟨-, ht, ha, mismatch, -⟩)
      · exact ne eq
      · exact stand (_, _) (List.mem_of_getElem? (List.getElem?_zip_eq_some.2 ⟨ht, ha⟩)) _ mismatch
    · obtain ⟨ht, ha⟩ := List.getElem?_zip_eq_some.1 found
      rw [Nat.zero_add] at unbuilt invalid
      refine .inr ⟨.term i a m, .term eq ht ha mismatch ?_, unbuilt, invalid⟩
      exact fun j less t' a' ht' ha' =>
        first j less (t', a') (List.getElem?_zip_eq_some.2 ⟨ht', ha'⟩)
  · rw [if_pos eq, if_pos eq]
    exact .inr ⟨_, .arity eq, rfl, rfl⟩

theorem checkProbability_eq_ok {rule : String} {index : Nat} {prob : Option Binary64}
    (probable : ∀ p ∈ prob, p.IsProbability) : checkProbability rule index prob = .ok () := by
  cases prob with
  | none => rfl
  | some p => exact if_pos ((Binary64.inUnitInterval_iff p).2 (probable p rfl))

theorem checkConditions_of_empty {head : Schema} {conditions : List Condition}
    (empty : conditions.flatMap Condition.literals = [])
    (probable : ∀ c ∈ conditions, ∀ p ∈ c.prob, p.IsProbability) (index : Nat) :
    v.checkConditions head index conditions = .ok () := by
  induction conditions generalizing index with
  | nil => rfl
  | cons c rest ih =>
    obtain ⟨first, later⟩ := List.forall_mem_cons.1 probable
    obtain ⟨none, others⟩ := List.append_eq_nil_iff.1 empty
    rw [checkConditions, checkProbability_eq_ok first, none]
    exact ih others later (index + 1)

/-- A rule with a single literal is checked as that literal is. -/
theorem checkConditions_of_single {head : Schema} {l : Literal} {conditions : List Condition}
    (single : conditions.flatMap Condition.literals = [l])
    (probable : ∀ c ∈ conditions, ∀ p ∈ c.prob, p.IsProbability) (index : Nat) :
    ∃ i c, conditions[i]? = some c ∧ c.literals = [l] ∧
      v.checkConditions head index conditions =
        v.checkLiteral head.id ⟨head.name, index + i, 0⟩ l := by
  induction conditions generalizing index with
  | nil => cases single
  | cons c rest ih =>
    obtain ⟨first, later⟩ := List.forall_mem_cons.1 probable
    rw [checkConditions, checkProbability_eq_ok first, ok_bind]
    rcases List.append_eq_singleton_iff.1 single with ⟨none, others⟩ | ⟨here, none⟩
    · obtain ⟨i, c', found, held, eq⟩ := ih others later (index + 1)
      have next : index + 1 + i = index + (i + 1) := by omega
      rw [next] at eq
      exact ⟨i + 1, c', found, held, by rw [none]; exact eq⟩
    · refine ⟨0, c, rfl, here, ?_⟩
      rw [here, checkLiterals, checkConditions_of_empty none later]
      cases v.checkLiteral head.id ⟨head.name, index, 0⟩ l <;> rfl

/-- **What can be built is what is valid.** For a schema that the view lets through, a rule with
another head whose only literal refers to it is valid exactly when the reference can be built of its
terms, and exactly when a query can. Otherwise all three stop at one obstacle. -/
theorem valid_iff_constructed (visible : v.view.get s.id = .ok s) {r : Rule}
    (other : r.head.id ≠ s.id)
    (single : r.conditions.flatMap Condition.literals = [.ref (.unchecked s.id terms)])
    (probable : ∀ c ∈ r.conditions, ∀ p ∈ c.prob, p.IsProbability) :
    ((∃ q, Ref.ofTerms s terms = .ok q) ↔ v.validate r = .ok ()) ∧
    ((∃ q, Query.forSchema s terms = .ok q) ↔ v.validate r = .ok ()) ∧
    ∀ e, v.validate r = .error e →
      ∃ o, s.Obstructs terms o ∧ Ref.ofTerms s terms = .error (o.schemaError s) ∧
        Query.forSchema s terms = .error (o.schemaError s) ∧
        ∃ i c, r.conditions[i]? = some c ∧ c.literals = [.ref (.unchecked s.id terms)] ∧
          e = o.validationError ⟨r.head.name, i, 0⟩ s := by
  -- nothing but the reference can make the rule invalid
  obtain ⟨i, c, found, held, eq⟩ := checkConditions_of_single single probable 0
  rw [Nat.zero_add] at eq
  rw [validate, eq, checkLiteral, Ref.ofTerms, Query.forSchema]
  rcases checkRef_cases visible other ⟨r.head.name, i, 0⟩ terms with
    ⟨-, built, valid⟩ | ⟨o, obstructs, unbuilt, invalid⟩
  · rw [built, valid]
    exact ⟨⟨fun _ => rfl, fun _ => ⟨.unchecked s.id terms, rfl⟩⟩,
      ⟨fun _ => rfl, fun _ => ⟨⟨.schema s, terms⟩, rfl⟩⟩, nofun⟩
  · rw [unbuilt, invalid]
    have fails {α : Type} {e : SchemaError} : ¬ ∃ a : α, Except.error e = .ok a :=
      fun ⟨_, h⟩ => nomatch h
    refine ⟨⟨fun built => absurd built fails, nofun⟩,
      ⟨fun built => absurd built fails, nofun⟩, ?_⟩
    rintro _ ⟨⟩
    exact ⟨o, obstructs, rfl, rfl, i, c, found, held, rfl⟩

end Validator

/-! ### A person of no weight -/

/-- Someone whose weight is a word. -/
def Term.heavy : List Term := [.var ⟨"X", none⟩, .const ⟨.str "heavy", none⟩]

/-- Whoever is heavy knows someone. -/
def Rule.heavy : Rule where
  head := .rel .undated
  conditions := [⟨[], some .one⟩, ⟨[.ref (.unchecked FactSchema.person.id Term.heavy)], none⟩]
  overrides := .none

theorem View.get_person :
    (View.full .acquaintances).get FactSchema.person.id = .ok (.fact .person) := by
  have found : Registry.acquaintances.get FactSchema.person.id = .ok (.fact .person) :=
    Registry.get_eq_ok_iff.2 ⟨.head _, rfl⟩
  have allowed : FactSchema.person.id ∈ (View.full .acquaintances).allowed :=
    List.mem_filter.2 ⟨Registry.acquaintances.madeOf_predicates.mem_ids_iff.2 (.head _), rfl⟩
  exact (if_pos (List.contains_iff_mem.2 allowed)).trans found

theorem Validator.valid_iff_constructed_heavy :
    (View.full .acquaintances).get FactSchema.person.id = .ok (.fact .person) ∧
    Rule.heavy.head.id ≠ FactSchema.person.id ∧
    Rule.heavy.conditions.flatMap Condition.literals =
      [.ref (.unchecked FactSchema.person.id Term.heavy)] ∧
    (∀ c ∈ Rule.heavy.conditions, ∀ p ∈ c.prob, p.IsProbability) ∧
    Ref.ofTerms (.fact .person) Term.heavy =
      .error (.valueTypeMismatch "person" "weight" "float" "\"heavy\"") ∧
    ∃ o, Schema.Obstructs (.fact .person) Term.heavy o ∧
      validate ⟨.full .acquaintances, none⟩ .heavy =
        .error (o.validationError ⟨"knows", 1, 0⟩ (.fact .person)) := by
  have other : Rule.heavy.head.id ≠ FactSchema.person.id := by
    have head : Rule.heavy.head.id = _ := RelSchema.id_undated
    rw [head, FactSchema.id_person]
    decide +kernel
  have probable : ∀ c ∈ Rule.heavy.conditions, ∀ p ∈ c.prob, p.IsProbability := by
    intro c hc p hp
    rcases List.mem_pair.1 hc with rfl | rfl
    · cases hp
      exact (Binary64.inUnitInterval_iff _).1 (by decide)
    · cases hp
  have unbuilt : Ref.ofTerms (.fact .person) Term.heavy =
      .error (.valueTypeMismatch "person" "weight" "float" "\"heavy\"") := by
    decide +kernel
  have single : Rule.heavy.conditions.flatMap Condition.literals =
    [.ref (.unchecked FactSchema.person.id Term.heavy)] := rfl
  obtain ⟨reference, -, refused⟩ := valid_iff_constructed (v := ⟨.full .acquaintances, none⟩)
    (s := .fact .person) View.get_person other single probable
  refine ⟨View.get_person, other, single, probable, unbuilt, ?_⟩
  cases outcome : validate ⟨.full .acquaintances, none⟩ .heavy with
  | ok _ =>
    obtain ⟨q, built⟩ := reference.2 outcome
    rw [unbuilt] at built
    cases built
  | error e =>
    obtain ⟨o, obstructs, -, -, i, c, found, held, rfl⟩ := refused e outcome
    rcases i with _ | _ | i
    · cases found
      cases held
    · exact ⟨o, obstructs, rfl⟩
    · cases found

end Clausal
