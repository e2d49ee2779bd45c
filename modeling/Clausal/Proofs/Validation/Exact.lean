import Clausal.Proofs.Registry.Index
import Clausal.Proofs.Validation.Violation

/-!
# Validation finds exactly the faults

Main statement: `validate_exact`. Each check is described by `FindsFirst`: it succeeds when no site
is at fault, and otherwise names the first site that is. A check of one literal knows one site only
(`At`); checks done in turn find the first fault of both when no site of the second comes before a
site of the first (`FindsFirst.bind`).
-/

namespace Clausal.Validator

/-! ### Checks in turn -/

/-- The outcome of a check of a rule whose faults are at the sites of `Faulty`. -/
structure FindsFirst (rule : String) (Faulty : Site → Prop) (m : Except ValidationError Unit) :
    Prop where
  ok : m = .ok () → ∀ s, ¬ Faulty s
  error : ∀ e, m = .error e → e.rule = rule ∧ Faulty e.site ∧ ∀ s, Faulty s → ¬ s.Before e.site

/-- Faults of the literal at a place. -/
def At (p : Place) (fault : Prop) (s : Site) : Prop := s = p.site ∧ fault

section Checks

variable {rule : String} {F G : Site → Prop} {m n : Except ValidationError Unit}

theorem FindsFirst.congr (h : FindsFirst rule F m) (eq : ∀ s, F s ↔ G s) : FindsFirst rule G m := by
  obtain rfl : F = G := funext fun s => propext (eq s)
  exact h

theorem FindsFirst.bind (hm : FindsFirst rule F m) (hn : FindsFirst rule G n)
    (order : ∀ s t, F s → G t → ¬ t.Before s) :
    FindsFirst rule (fun s => F s ∨ G s) (m >>= fun _ => n) := by
  cases m with
  | error e =>
    obtain ⟨named, faulty, first⟩ := hm.error e rfl
    refine ⟨nofun, ?_⟩
    rintro _ ⟨⟩
    exact ⟨named, .inl faulty, fun s hs => hs.elim (first s) (order _ s faulty)⟩
  | ok _ =>
    have none := hm.ok rfl
    refine ⟨fun h s hs => hs.elim (none s) (hn.ok h s), fun e h => ?_⟩
    obtain ⟨named, faulty, first⟩ := hn.error e h
    exact ⟨named, .inr faulty, fun s hs => hs.elim (fun h => absurd h (none s)) (first s)⟩

variable {p : Place} {P Q : Prop}

theorem findsFirst_ok (h : ¬ P) : FindsFirst rule (At p P) (.ok ()) :=
  ⟨fun _ _ hs => h hs.2, nofun⟩

theorem findsFirst_error {e : ValidationError} (named : e.rule = p.rule) (site : e.site = p.site)
    (h : P) : FindsFirst p.rule (At p P) (.error e) := by
  refine ⟨nofun, ?_⟩
  rintro _ ⟨⟩
  refine ⟨named, ⟨site, h⟩, fun s hs => ?_⟩
  rw [site, hs.1]
  exact Site.not_before_self _

theorem FindsFirst.congrAt (h : FindsFirst rule (At p P) m) (eq : P ↔ Q) :
    FindsFirst rule (At p Q) m :=
  h.congr fun _ => and_congr_right fun _ => eq

theorem FindsFirst.bindAt (hm : FindsFirst rule (At p P) m) (hn : FindsFirst rule (At p Q) n) :
    FindsFirst rule (At p (P ∨ Q)) (m >>= fun _ => n) := by
  refine (hm.bind hn fun s t hs ht => ?_).congr fun s => and_or_left.symm
  rw [hs.1, ht.1]
  exact Site.not_before_self _

/-- A test before a check. -/
theorem findsFirst_guard {c : Prop} {_ : Decidable c} {e : ValidationError} (named : e.rule = p.rule)
    (site : e.site = p.site) (hn : ¬ c → FindsFirst p.rule (At p Q) n) :
    FindsFirst p.rule (At p (c ∨ Q)) (if c then .error e else n) := by
  split
  case isTrue h => exact findsFirst_error named site (.inl h)
  case isFalse h => exact (hn h).congrAt (by simp [h])

/-- The items of a list whose head is checked first. -/
theorem exists_cons_getElem? {α : Type} {a : α} {rest : List α} {index : Nat}
    {R : Nat → α → Prop} :
    (∃ k x, (a :: rest)[k]? = some x ∧ R (index + k) x) ↔
      R index a ∨ ∃ k x, rest[k]? = some x ∧ R (index + 1 + k) x := by
  constructor
  · rintro ⟨k, x, hx, h⟩
    cases k with
    | zero =>
      obtain rfl : a = x := by simpa using hx
      exact .inl h
    | succ k => exact .inr ⟨k, x, by simpa using hx, by rwa [Nat.add_right_comm]⟩
  · rintro (h | ⟨k, x, hx, h⟩)
    · exact ⟨0, a, rfl, h⟩
    · exact ⟨k + 1, x, by simpa using hx, by rwa [Nat.add_right_comm] at h⟩

end Checks

/-! ### Terms of a reference -/

/-- A constant notes another datatype than the one that is wanted, or is not of it. -/
def ConstFault (wanted : String) (c : Const) : Prop :=
  (∃ noted, c.datatype = some noted ∧ Datatype.normalize noted ≠ Datatype.normalize wanted) ∨
    c.value.fits wanted = false

/-- A term does not fit a slot, which wants a datatype or none. -/
def TermFault : Term × Option String → Prop
  | (.var x, _) => Text.trim x.name = ""
  | (.const c, some wanted) => ConstFault wanted c
  | (.const _, none) => False

theorem checkVar_finds (place : Place) (name : String) :
    FindsFirst place.rule (At place (Text.trim name = "")) (checkVar place name) := by
  unfold checkVar
  split
  case isTrue h => exact findsFirst_error rfl rfl h
  case isFalse h => exact findsFirst_ok h

theorem checkConst_finds (place : Place) (predicate : String) (position : Nat) (wanted : String)
    (c : Const) :
    FindsFirst place.rule (At place (ConstFault wanted c))
      (checkConst place predicate position wanted c) := by
  have noted : c.datatype.any (!Datatype.agree · wanted) = true ↔
      ∃ noted, c.datatype = some noted ∧
        Datatype.normalize noted ≠ Datatype.normalize wanted := by
    cases c.datatype <;> simp [Datatype.agree]
  unfold checkConst
  refine FindsFirst.congrAt (findsFirst_guard rfl rfl fun _ =>
    findsFirst_guard rfl rfl fun _ => findsFirst_ok not_false) ?_
  rw [noted, Bool.not_eq_true', or_false]
  rfl

theorem checkTerms_finds (place : Place) (predicate : String) (slots : List (Term × Option String))
    (position : Nat) :
    FindsFirst place.rule (At place (∃ t ∈ slots, TermFault t))
      (checkTerms place predicate position slots) := by
  induction slots generalizing position with
  | nil => exact findsFirst_ok (by simp)
  | cons t rest ih =>
    have rest := ih (position + 1)
    simp only [List.exists_mem_cons_iff]
    match t with
    | (.var x, _) => exact (checkVar_finds place x.name).bindAt rest
    | (.const c, some wanted) =>
      exact (checkConst_finds place predicate position wanted c).bindAt rest
    | (.const c, none) => exact rest.congrAt (by simp [TermFault])

/-! ### What an identifier refers to -/

variable {v : Validator} {id : String}

theorem RefersTo.unique {t t' : Referent} (h : v.RefersTo id t) (h' : v.RefersTo id t') :
    t = t' := by
  cases h <;> cases h' <;> simp_all

theorem exists_get_of_allows {view : View} (h : view.allows id = true) :
    ∃ s, view.parent.get id = .ok s := by
  have mem : id ∈ view.parent.ids := view.allowed_sublist.subset (by simpa [View.allows] using h)
  obtain ⟨s, hs, eq⟩ := List.mem_map.1 mem
  exact ⟨s, Registry.get_eq_ok_iff.2 ⟨(Schema.perm_sortById _).mem_iff.1 hs, eq⟩⟩

/-- The datatypes of a declared predicate are as many as its arguments. -/
theorem length_of_declared {l : Library} {s : LibrarySpec} {datatypes : List String}
    (mem : s ∈ l.specs.values) (h : s.signature = some datatypes) :
    datatypes.length = s.arity := by
  obtain ⟨e, he, rfl⟩ := List.mem_map.1 mem
  have checked := l.checked e he
  unfold LibrarySpec.check at checked
  rw [h] at checked
  simp only at checked
  split at checked
  · cases checked
  · split at checked
    · cases checked
    · split at checked
      · assumption
      · cases checked

/-- A target has one slot for each argument of what the identifier refers to. -/
theorem target?_eq_some {target : Target} (h : v.target? id = some target) :
    ∃ t, v.RefersTo id t ∧ target.datatypes.length = t.arity ∧
      ∀ i, target.datatypes[i]? = some (t.datatype? i) ∨
        target.datatypes[i]? = none ∧ t.datatype? i = none := by
  unfold target? at h
  -- the library is looked at for what the view hides only
  cases visible : v.view.allows id with
  | true =>
    obtain ⟨s, found⟩ := exists_get_of_allows visible
    simp only [View.get, visible, if_true, found, Option.some.injEq] at h
    refine ⟨.schema s, .schema visible found, by simp [← h]; rfl, fun i => ?_⟩
    simp only [← h, List.getElem?_map, Referent.datatype?]
    cases s.signature.args[i]? <;> simp
  | false =>
    simp only [View.get, visible, Bool.false_eq_true, if_false] at h
    cases library : v.library with
    | none => simp [library] at h
    | some l =>
      cases found : l.predicate? id with
      | none => simp [library, found] at h
      | some s =>
        refine ⟨.spec s, .spec visible library found, ?_⟩
        cases signature : s.signature with
        | none =>
          obtain rfl : Target.mk s.name (List.replicate s.arity none) = target := by
            simpa [library, found, signature] using h
          refine ⟨by simp [Referent.arity], fun i => ?_⟩
          simp only [Referent.datatype?, signature, List.getElem?_replicate]
          split <;> simp
        | some datatypes =>
          obtain rfl : Target.mk s.name (datatypes.map some) = target := by
            simpa [library, found, signature] using h
          have length := length_of_declared (Library.predicate?_sound found).1 signature
          refine ⟨by simp [Referent.arity, length], fun i => ?_⟩
          simp only [Referent.datatype?, signature, List.getElem?_map, Option.bind_some]
          cases datatypes[i]? <;> simp

theorem target?_eq_none (h : v.target? id = none) :
    v.view.allows id = false ∧
      ∀ l, v.library = some l → ∀ s ∈ l.specs.values, s.schemaId? ≠ some id := by
  unfold target? at h
  cases visible : v.view.allows id with
  | true =>
    obtain ⟨s, found⟩ := exists_get_of_allows visible
    simp [View.get, visible, found] at h
  | false =>
    refine ⟨rfl, fun l library => Library.predicate?_eq_none.1 ?_⟩
    simp only [View.get, visible, Bool.false_eq_true, if_false, library] at h
    cases found : l.predicate? id with
    | none => rfl
    | some s => cases signature : s.signature <;> simp [found, signature] at h

/-- A reference without a fault is to a predicate, and has a term for each of its arguments. -/
theorem exists_refersTo {headId : String} {r : Ref}
    (sound : ¬ v.RefFault headId r) :
    ∃ t, v.RefersTo r.schemaId t ∧ r.terms.length = t.arity := by
  obtain ⟨t, refers⟩ : ∃ t, v.RefersTo r.schemaId t := by
    cases found : v.target? r.schemaId with
    | none =>
      obtain ⟨hidden, undeclared⟩ := target?_eq_none found
      exact absurd (.outOfScope hidden undeclared) sound
    | some target =>
      obtain ⟨t, refers, -⟩ := target?_eq_some found
      exact ⟨t, refers⟩
  exact ⟨t, refers, not_not.1 fun ne => sound (.arity refers ne)⟩

/-- Terms that are as many as the slots of a target are faulty exactly when the reference is. -/
theorem exists_termFault_iff {headId : String} {r : Ref} {target : Target} {t : Referent}
    (refers : v.RefersTo r.schemaId t) (other : r.schemaId ≠ headId)
    (length : r.terms.length = target.datatypes.length) (arity : target.datatypes.length = t.arity)
    (slots : ∀ i, target.datatypes[i]? = some (t.datatype? i) ∨
      target.datatypes[i]? = none ∧ t.datatype? i = none) :
    (∃ x ∈ r.terms.zip target.datatypes, TermFault x) ↔ v.RefFault headId r := by
  constructor
  · rintro ⟨⟨a, d⟩, mem, fault⟩
    obtain ⟨i, hi⟩ := List.mem_iff_getElem?.1 mem
    obtain ⟨ha, hd⟩ := List.getElem?_zip_eq_some.1 hi
    match a, d with
    | .var x, _ => exact .unnamed (List.mem_of_getElem? ha) fault
    | .const c, some wanted =>
      have slot : t.datatype? i = some wanted := by
        rcases slots i with h | ⟨h, -⟩ <;> rw [h] at hd <;> simp_all
      rcases fault with ⟨noted, note, ne⟩ | misfit
      · exact .datatype refers ha slot note ne
      · exact .value refers ha slot misfit
  · -- an identifier refers to one thing, so the slot is that of the target
    have const_fault {t' i c wanted} (h' : v.RefersTo r.schemaId t')
        (const : r.terms[i]? = some (.const c)) (slot : t'.datatype? i = some wanted)
        (fault : ConstFault wanted c) : ∃ x ∈ r.terms.zip target.datatypes, TermFault x := by
      obtain rfl := refers.unique h'
      have hd : target.datatypes[i]? = some (some wanted) := by
        rcases slots i with h | ⟨-, h⟩ <;> simp_all
      exact ⟨(.const c, some wanted),
        List.mem_of_getElem? (List.getElem?_zip_eq_some.2 ⟨const, hd⟩), fault⟩
    intro fault
    cases fault with
    | recursive h => exact absurd h other
    | outOfScope hidden undeclared =>
      cases refers with
      | schema visible found => simp [hidden] at visible
      | spec _ library found =>
        exact absurd found (by simp [Library.predicate?_eq_none.2 (undeclared _ library)])
    | arity h ne =>
      obtain rfl := refers.unique h
      exact absurd (length.trans arity) ne
    | @unnamed x mem empty =>
      obtain ⟨i, hi, ha⟩ := List.mem_iff_getElem.1 mem
      refine ⟨(.var x, target.datatypes[i]), ?_, empty⟩
      exact List.mem_of_getElem? (List.getElem?_zip_eq_some.2
        ⟨by rw [← ha]; exact List.getElem?_eq_getElem hi,
          List.getElem?_eq_getElem (length ▸ hi)⟩)
    | datatype h const slot note ne => exact const_fault h const slot (.inl ⟨_, note, ne⟩)
    | value h const slot misfit => exact const_fault h const slot (.inr misfit)

theorem checkRef_finds (v : Validator) (headId : String) (place : Place) (r : Ref) :
    FindsFirst place.rule (At place (v.RefFault headId r)) (v.checkRef headId place r) := by
  unfold checkRef
  split
  case isTrue same => exact findsFirst_error rfl rfl (.recursive same)
  case isFalse other =>
    split
    case h_1 unknown =>
      obtain ⟨hidden, undeclared⟩ := target?_eq_none unknown
      exact findsFirst_error rfl rfl (.outOfScope hidden undeclared)
    case h_2 target found =>
      obtain ⟨t, refers, arity, slots⟩ := target?_eq_some found
      split
      case isTrue ne => exact findsFirst_error rfl rfl (.arity refers (arity ▸ ne))
      case isFalse eq =>
        -- the number of terms is right, so that each of them has a slot to be checked against
        exact (checkTerms_finds place _ _ _).congrAt
          (exists_termFault_iff refers other (not_not.1 eq) arity slots)

/-! ### Expressions -/

section Expressions

variable {headId : String} {b : Bool}

theorem exprFault_var {x : Var} : v.ExprFault headId b (.var x) ↔ Text.trim x.name = "" := by
  constructor
  · rintro ⟨_, _, ⟨⟩, ⟨h⟩⟩
    exact h
  · exact fun h => ⟨b, _, .self, .unnamed h⟩

theorem not_exprFault_const {c : Const} : ¬ v.ExprFault headId b (.const c) := by
  rintro ⟨_, _, ⟨⟩, ⟨⟩⟩

theorem exprFault_ref {r : Ref} :
    v.ExprFault headId b (.ref r) ↔ r.negated = true ∨ b = true ∨ v.RefFault headId r := by
  constructor
  · -- nothing but the reference itself is within it
    rintro ⟨_, _, ⟨⟩, h | h | h | h | h⟩
    · exact .inl h
    · exact .inr (.inl rfl)
    · exact .inr (.inr h)
  · rintro (h | rfl | h)
    · exact ⟨b, _, .self, .negated h⟩
    · exact ⟨true, _, .self, .belowNot⟩
    · exact ⟨b, _, .self, .ref h⟩

theorem exprFault_call {op : String} {args : List Expr} :
    v.ExprFault headId b (.call op args) ↔
      Text.lower (Text.trim op) ∈ disallowedOps ∨ ∃ a ∈ args, v.ExprFault headId b a := by
  constructor
  · rintro ⟨u, x, within, fault⟩
    cases within with
    | self =>
      cases fault with
      | disallowed h => exact .inl h
    | arg mem h => exact .inr ⟨_, mem, u, x, h, fault⟩
  · rintro (h | ⟨a, mem, u, x, within, fault⟩)
    · exact ⟨b, _, .self, .disallowed h⟩
    · exact ⟨u, x, .arg mem within, fault⟩

theorem exprFault_unify {lhs rhs : Expr} :
    v.ExprFault headId b (.unify lhs rhs) ↔
      v.ExprFault headId b lhs ∨ v.ExprFault headId b rhs := by
  constructor
  · rintro ⟨u, x, within, fault⟩
    cases within with
    | self => cases fault
    | lhs h => exact .inl ⟨u, x, h, fault⟩
    | rhs h => exact .inr ⟨u, x, h, fault⟩
  · rintro (⟨u, x, h, fault⟩ | ⟨u, x, h, fault⟩)
    · exact ⟨u, x, .lhs h, fault⟩
    · exact ⟨u, x, .rhs h, fault⟩

theorem exprFault_choice {condition yes no : Expr} :
    v.ExprFault headId b (.choice condition yes no) ↔
      v.ExprFault headId b condition ∨ v.ExprFault headId b yes ∨ v.ExprFault headId b no := by
  constructor
  · rintro ⟨u, x, within, fault⟩
    cases within with
    | self => cases fault
    | condition h => exact .inl ⟨u, x, h, fault⟩
    | yes h => exact .inr (.inl ⟨u, x, h, fault⟩)
    | no h => exact .inr (.inr ⟨u, x, h, fault⟩)
  · rintro (⟨u, x, h, fault⟩ | ⟨u, x, h, fault⟩ | ⟨u, x, h, fault⟩)
    · exact ⟨u, x, .condition h, fault⟩
    · exact ⟨u, x, .yes h, fault⟩
    · exact ⟨u, x, .no h, fault⟩

theorem exprFault_not {e : Expr} :
    v.ExprFault headId b (.not e) ↔ v.ExprFault headId true e := by
  constructor
  · rintro ⟨u, x, within, fault⟩
    cases within with
    | self => cases fault
    | not h => exact ⟨u, x, h, fault⟩
  · rintro ⟨u, x, h, fault⟩
    exact ⟨u, x, .not h, fault⟩

end Expressions

mutual

/-- The check of an expression, by induction on it; the flag only ever turns on, below a `not`. -/
theorem checkExpr_finds (v : Validator) (headId : String) (place : Place) (b : Bool) (e : Expr) :
    FindsFirst place.rule (At place (v.ExprFault headId b e)) (v.checkExpr headId place b e) := by
  match e with
  | .var x => exact (checkVar_finds place x.name).congrAt exprFault_var.symm
  | .const c => exact findsFirst_ok not_exprFault_const
  | .ref r =>
    refine FindsFirst.congrAt ?_ exprFault_ref.symm
    exact findsFirst_guard rfl rfl fun _ => findsFirst_guard rfl rfl fun _ =>
      checkRef_finds v headId place r
  | .call op args =>
    refine FindsFirst.congrAt (findsFirst_guard rfl rfl fun _ =>
      checkExprs_finds v headId place b args) ?_
    rw [exprFault_call, isDisallowed, List.contains_iff_mem]
  | .unify lhs rhs =>
    refine FindsFirst.congrAt ?_ exprFault_unify.symm
    exact (checkExpr_finds v headId place b lhs).bindAt (checkExpr_finds v headId place b rhs)
  | .choice condition yes no =>
    refine FindsFirst.congrAt ?_ exprFault_choice.symm
    exact (checkExpr_finds v headId place b condition).bindAt
      ((checkExpr_finds v headId place b yes).bindAt (checkExpr_finds v headId place b no))
  | .not e => exact (checkExpr_finds v headId place true e).congrAt exprFault_not.symm

theorem checkExprs_finds (v : Validator) (headId : String) (place : Place) (b : Bool)
    (es : List Expr) :
    FindsFirst place.rule (At place (∃ e ∈ es, v.ExprFault headId b e))
      (v.checkExprs headId place b es) := by
  match es with
  | [] => exact findsFirst_ok (by simp)
  | e :: rest =>
    refine FindsFirst.congrAt ?_ (List.exists_mem_cons_iff ..).symm
    exact (checkExpr_finds v headId place b e).bindAt (checkExprs_finds v headId place b rest)

end

/-! ### Literals and conditions -/

theorem checkLiteral_finds (v : Validator) (headId : String) (place : Place) (l : Literal) :
    FindsFirst place.rule (At place (v.LiteralFault headId l)) (v.checkLiteral headId place l) :=
  match l with
  | .ref r => checkRef_finds v headId place r
  | .expr e => checkExpr_finds v headId place false e

theorem checkLiterals_finds (v : Validator) (head : Schema) (condition index : Nat)
    (literals : List Literal) :
    FindsFirst head.name
      (fun s => ∃ j l, literals[j]? = some l ∧ s = ⟨condition, some (index + j)⟩ ∧
        v.LiteralFault head.id l)
      (v.checkLiterals head condition index literals) := by
  induction literals generalizing index with
  | nil => exact ⟨fun _ _ => by simp, nofun⟩
  | cons l rest ih =>
    refine ((checkLiteral_finds v head.id ⟨head.name, condition, index⟩ l).bind (ih (index + 1))
      ?_).congr fun s => (exists_cons_getElem? (R := fun j l =>
        s = ⟨condition, some j⟩ ∧ v.LiteralFault head.id l)).symm
    -- a literal of the rest has a greater index
    rintro _ _ ⟨rfl, -⟩ ⟨j, l', -, rfl, -⟩
    simp only [Site.Before, Site.rank, Place.site, Option.elim]
    omega

/-- A condition at an index is at fault at a site: the condition itself, or a literal of it. -/
def ConditionFault (v : Validator) (head : Schema) (index : Nat) (c : Condition) (s : Site) :
    Prop :=
  (s = ⟨index, none⟩ ∧ ∃ p, c.prob = some p ∧ ¬ p.IsProbability) ∨
    ∃ j l, c.literals[j]? = some l ∧ s = ⟨index, some (0 + j)⟩ ∧ v.LiteralFault head.id l

theorem checkProbability_finds (rule : String) (index : Nat) (prob : Option Binary64) :
    FindsFirst rule (fun s => s = ⟨index, none⟩ ∧ ∃ p, prob = some p ∧ ¬ p.IsProbability)
      (checkProbability rule index prob) := by
  match prob with
  | none => exact ⟨fun _ _ => by simp, nofun⟩
  | some p =>
    cases inside : p.inUnitInterval with
    | true =>
      simp only [checkProbability, inside, if_true]
      refine ⟨?_, nofun⟩
      rintro - s ⟨-, _, ⟨⟩, out⟩
      exact out ((Binary64.inUnitInterval_iff p).1 inside)
    | false =>
      simp only [checkProbability, inside, Bool.false_eq_true, if_false]
      have out : ¬ p.IsProbability := by simp [← Binary64.inUnitInterval_iff, inside]
      refine ⟨nofun, ?_⟩
      rintro _ ⟨⟩
      refine ⟨rfl, ⟨rfl, p, rfl, out⟩, ?_⟩
      rintro s ⟨rfl, -⟩
      exact Site.not_before_self _

theorem checkConditions_finds (v : Validator) (head : Schema) (index : Nat)
    (conditions : List Condition) :
    FindsFirst head.name
      (fun s => ∃ i c, conditions[i]? = some c ∧ v.ConditionFault head (index + i) c s)
      (v.checkConditions head index conditions) := by
  induction conditions generalizing index with
  | nil => exact ⟨fun _ _ => by simp, nofun⟩
  | cons c rest ih =>
    have literals := checkLiterals_finds v head index 0 c.literals
    refine ((checkProbability_finds head.name index c.prob).bind (literals.bind (ih (index + 1)) ?_)
      ?_).congr fun s => ?_
    · -- a site of the rest has a greater condition
      rintro s t ⟨j, l, -, rfl, -⟩ ⟨i, c', -, h | ⟨j', l', -, h, -⟩⟩ <;>
      · simp only [Site.Before, h]
        omega
    · -- the probability has the least site of all
      rintro s t ⟨rfl, -⟩ (⟨j, l, -, rfl, -⟩ | ⟨i, c', -, h | ⟨j', l', -, h, -⟩⟩) <;>
      · simp only [Site.Before, Site.rank, Option.elim, *]
        omega
    · rw [exists_cons_getElem? (R := fun i c => v.ConditionFault head i c s), ConditionFault,
        or_assoc]

theorem faultyAt_iff {r : Rule} {s : Site} :
    v.FaultyAt r s ↔ ∃ i c, r.conditions[i]? = some c ∧ v.ConditionFault r.head (0 + i) c s := by
  simp only [Nat.zero_add, ConditionFault]
  constructor
  · rintro (⟨hc, hp, out⟩ | ⟨hc, hl, fault⟩)
    · exact ⟨_, _, hc, .inl ⟨rfl, _, hp, out⟩⟩
    · exact ⟨_, _, hc, .inr ⟨_, _, hl, rfl, fault⟩⟩
  · rintro ⟨i, c, hc, ⟨rfl, p, hp, out⟩ | ⟨j, l, hl, rfl, fault⟩⟩
    · exact .probability hc hp out
    · exact .literal hc hl fault

/-- **Validation is exact.** A rule passes when nothing in it is at fault, and only then. An error
names the rule and the first of the sites at fault: the least condition, there the probability
before the literals, and of these the least. -/
theorem validate_exact (v : Validator) (r : Rule) :
    (v.validate r = .ok () ↔ ∀ s, ¬ v.FaultyAt r s) ∧
      ∀ e, v.validate r = .error e →
        e.rule = r.head.name ∧ v.FaultyAt r e.site ∧ ∀ s, v.FaultyAt r s → ¬ s.Before e.site := by
  have finds : FindsFirst r.head.name (v.FaultyAt r) (v.validate r) :=
    (checkConditions_finds v r.head 0 r.conditions).congr fun _ => faultyAt_iff.symm
  refine ⟨⟨finds.ok, fun none => ?_⟩, finds.error⟩
  cases outcome : v.validate r with
  | ok _ => rfl
  | error e => exact absurd (finds.error e outcome).2.1 (none _)

end Clausal.Validator
