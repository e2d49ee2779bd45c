import Clausal.Proofs.Library.Declared
import Clausal.Proofs.Outcomes
import Clausal.Proofs.Registry.Scopes
import Clausal.Proofs.Validation.Exact

/-!
# More to refer to

Main statement: `Validator.Widens.valid`. A rule that is valid stays valid when the view lets more
through and the library declares more, provided that identifiers stay unambiguous. What was hidden
from the view and declared by the library could come to be visible, or be taken for another
declaration; when it cannot, an identifier refers to what it has referred to before
(`Widens.refersTo`), and every fault that there is with more to refer to has been there before.
-/

namespace Clausal

namespace Validator

/-! ### What identifiers refer to -/

/-- `w` has more to refer to than `v`: its view of the same registry lets through what the one of `v`
does, and its library, if `v` has one, is that library with further specs. -/
structure Widens (v w : Validator) : Prop where
  parent : w.view.parent = v.view.parent
  allowed : v.view.allowed ⊆ w.view.allowed
  library : ∀ l, v.library = some l → ∃ m, w.library = some m ∧ l.Grows m

/-- The predicates of a library have identifiers of their own: none of the registry, and none of one
another, unless the texts behind them are the same. -/
structure Unambiguous (w : Validator) : Prop where
  apart : ∀ l, w.library = some l → ∀ s ∈ l.specs.values, ∀ id ∈ s.schemaId?,
    id ∉ w.view.parent.ids
  collisionFree : ∀ l, w.library = some l → l.CollisionFree

namespace Widens

variable {v w : Validator} (wider : v.Widens w)

include wider

theorem allows {id : String} (h : v.view.allows id = true) : w.view.allows id = true :=
  List.contains_iff_mem.2 (wider.allowed (List.contains_iff_mem.1 h))

/-- An identifier refers to what it has referred to before. -/
theorem refersTo (unambiguous : w.Unambiguous) {id : String} {t : Referent} (h : v.RefersTo id t) :
    w.RefersTo id t := by
  cases h with
  | schema visible found => exact .schema (wider.allows visible) (wider.parent ▸ found)
  | @spec l s hidden library found =>
    obtain ⟨m, library', grown⟩ := wider.library l library
    have found' := grown.predicate? (unambiguous.collisionFree m library') found
    have hidden' : w.view.allows id = false := by
      refine Bool.eq_false_iff.2 fun visible => ?_
      have known := w.view.allowed_sublist.subset (List.contains_iff_mem.1 visible)
      obtain ⟨mem, named⟩ := Library.predicate?_sound found'
      exact unambiguous.apart m library' s mem id named known
    exact .spec hidden' library' found'

/-! ### Faults -/

/-- A reference that is at fault has been at fault before: one without a fault refers to something,
and that is what it still refers to. -/
theorem refFault (unambiguous : w.Unambiguous) {headId : String} {r : Ref}
    (fault : w.RefFault headId r) : v.RefFault headId r := by
  by_contra sound
  obtain ⟨t, refers, length⟩ := exists_refersTo sound
  have refers' := wider.refersTo unambiguous refers
  cases fault with
  | recursive h => exact sound (.recursive h)
  | outOfScope hidden undeclared =>
    cases refers' with
    | schema visible => exact absurd visible (Bool.eq_false_iff.1 hidden)
    | spec _ library found =>
      exact absurd found (by simp [Library.predicate?_eq_none.2 (undeclared _ library)])
  | arity h ne => exact ne (refers'.unique h ▸ length)
  | unnamed mem empty => exact sound (.unnamed mem empty)
  | datatype h const slot note ne =>
    exact sound (.datatype refers const (refers'.unique h ▸ slot) note ne)
  | value h const slot misfit => exact sound (.value refers const (refers'.unique h ▸ slot) misfit)

theorem nodeFault (unambiguous : w.Unambiguous) {headId : String} {b : Bool} {x : Expr}
    (fault : w.NodeFault headId b x) : v.NodeFault headId b x := by
  cases fault with
  | unnamed empty => exact .unnamed empty
  | disallowed h => exact .disallowed h
  | negated h => exact .negated h
  | belowNot => exact .belowNot
  | ref h => exact .ref (wider.refFault unambiguous h)

theorem literalFault (unambiguous : w.Unambiguous) {headId : String} {l : Literal}
    (fault : w.LiteralFault headId l) : v.LiteralFault headId l := by
  cases l with
  | ref r => exact wider.refFault unambiguous fault
  | expr e =>
    obtain ⟨u, x, within, fault⟩ := fault
    exact ⟨u, x, within, wider.nodeFault unambiguous fault⟩

theorem faultyAt (unambiguous : w.Unambiguous) {r : Rule} {s : Site} (fault : w.FaultyAt r s) :
    v.FaultyAt r s := by
  cases fault with
  | probability hc hp out => exact .probability hc hp out
  | literal hc hl fault => exact .literal hc hl (wider.literalFault unambiguous fault)

end Widens

/-! ### Valid rules -/

theorem validate_finds (v : Validator) (r : Rule) :
    FindsFirst r.head.name (v.FaultyAt r) (v.validate r) :=
  (checkConditions_finds v r.head 0 r.conditions).congr fun _ => faultyAt_iff.symm

/-- **What is valid stays valid** when there is more to refer to. -/
theorem Widens.valid {v w : Validator} (wider : v.Widens w) (unambiguous : w.Unambiguous)
    {r : Rule} (valid : v.validate r = .ok ()) : w.validate r = .ok () := by
  cases outcome : w.validate r with
  | ok => rfl
  | error e =>
    obtain ⟨-, fault, -⟩ := (validate_finds w r).error e outcome
    exact absurd (wider.faultyAt unambiguous fault) ((validate_finds v r).ok valid _)

end Validator

/-! ### Older people -/

/-- Whoever knows someone older defers to them. -/
def Rule.deferring : Rule where
  head := .rel .undated
  conditions := [⟨[
    .ref ⟨RelSchema.knows.id,
      [.var ⟨"sub_number", none⟩, .var ⟨"obj_number", none⟩, .var ⟨"since", none⟩], false⟩,
    .ref ⟨LibrarySpec.olderId,
      [.var ⟨"obj_number", none⟩, .var ⟨"sub_number", none⟩], false⟩], none⟩]
  overrides := .none

namespace Validator

/-- One of the relations of a registry, and a library that can say who is older. -/
def narrow : Validator := ⟨.restrict .acquaintances (· == RelSchema.knows.id), some .ages⟩

/-- All of the registry, and a library that can also say who is taller. -/
def wide : Validator := ⟨.full .acquaintances, some .sizes⟩

theorem widens_narrow : narrow.Widens wide where
  parent := rfl
  allowed id hid := List.mem_filter.2 ⟨(List.mem_filter.1 hid).1, rfl⟩
  library := by
    rintro _ ⟨⟩
    exact ⟨_, rfl, .insert .refl Library.insert_taller⟩

theorem unambiguous_wide : wide.Unambiguous where
  apart := by
    rintro _ ⟨⟩ s hs id named known
    have held := Registry.acquaintances.madeOf_predicates.mem_ids_iff.1 known
    simp only [Registry.acquaintances, List.map_cons, List.map_nil, Schema.id,
      FactSchema.id_person, RelSchema.id_knows, RelSchema.id_undated] at held
    revert held
    rcases List.mem_pair.1 hs with rfl | rfl
    · cases LibrarySpec.schemaId?_older.symm.trans named
      decide
    · cases LibrarySpec.schemaId?_taller.symm.trans named
      decide
  collisionFree := by
    rintro _ ⟨⟩
    exact Library.collisionFree_sizes

theorem target?_narrow_knows :
    narrow.target? RelSchema.knows.id = some ⟨"knows", [some "int", some "int", some "int"]⟩ := by
  have held : Schema.rel .knows ∈ Registry.acquaintances.predicates := .tail _ (.head _)
  have known : RelSchema.knows.id ∈ Registry.acquaintances.ids :=
    Registry.acquaintances.madeOf_predicates.mem_ids_iff.2 (List.mem_map_of_mem held)
  have visible : narrow.view.allows RelSchema.knows.id = true :=
    List.contains_iff_mem.2 (List.mem_filter.2 ⟨known, beq_self_eq_true _⟩)
  have found : narrow.view.parent.get RelSchema.knows.id = .ok (.rel .knows) :=
    Registry.get_eq_ok_iff.2 ⟨held, rfl⟩
  rw [target?, View.get, if_pos visible, found]
  rfl

theorem target?_narrow_older :
    narrow.target? LibrarySpec.olderId = some ⟨"older", [none, none]⟩ := by
  have hidden : ¬ narrow.view.allows LibrarySpec.olderId = true := by
    intro visible
    have same := (List.mem_filter.1 (List.contains_iff_mem.1 visible)).2
    rw [RelSchema.id_knows] at same
    exact absurd same (by decide)
  have found : Library.ages.predicate? LibrarySpec.olderId = some (.comparing "older") :=
    (Library.predicate?_add _ _ _).trans (if_pos LibrarySpec.schemaId?_older)
  have library : narrow.library = some .ages := rfl
  rw [target?, View.get, if_neg hidden]
  simp only [library, Option.bind_eq_bind, Option.bind_some, found]
  rfl

theorem checkRef_eq_ok {v : Validator} {headId : String} {place : Place} {r : Ref} {t : Target}
    (other : r.schemaId ≠ headId) (known : v.target? r.schemaId = some t)
    (length : r.terms.length = t.datatypes.length)
    (fit : checkTerms place t.predicate 0 (r.terms.zip t.datatypes) = .ok ()) :
    v.checkRef headId place r = .ok () := by
  rw [checkRef, if_neg other, known]
  exact (if_neg (not_not.2 length)).trans fit

theorem validate_narrow : narrow.validate .deferring = .ok () := by
  have notKnows : RelSchema.knows.id ≠ RelSchema.undated.id := by
    rw [RelSchema.id_knows, RelSchema.id_undated]
    decide
  have notOlder : LibrarySpec.olderId ≠ RelSchema.undated.id := by
    rw [RelSchema.id_undated]
    decide
  have literals : narrow.checkLiterals (.rel .undated) 0 0
      (Rule.deferring.conditions.flatMap (·.literals)) = .ok () :=
    check_bind_eq_ok.2 ⟨checkRef_eq_ok notKnows target?_narrow_knows rfl rfl, check_bind_eq_ok.2
      ⟨checkRef_eq_ok notOlder target?_narrow_older rfl rfl, rfl⟩⟩
  exact check_bind_eq_ok.2 ⟨rfl, check_bind_eq_ok.2 ⟨literals, rfl⟩⟩

theorem Widens.valid_deferring :
    narrow.Widens wide ∧ wide.Unambiguous ∧ narrow.validate .deferring = .ok () ∧
      wide.validate .deferring = .ok () :=
  ⟨widens_narrow, unambiguous_wide, validate_narrow,
    widens_narrow.valid unambiguous_wide validate_narrow⟩

end Validator

end Clausal
