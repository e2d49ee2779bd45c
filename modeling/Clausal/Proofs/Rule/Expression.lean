import Clausal.Proofs.Value
import Clausal.Rule.Expression

/-!
# Expressions are read as they were written

Main statement: `Expr.decode_reads`. The nesting of the document bounds how often an expression is
opened, and each part of an expression is nested less than the whole (`Expr.decodeWithin_reads`).
-/

namespace Clausal

open Decode Decode.Members Json

/-! ### Variables and constants -/

namespace Var

/-- The members of a stored variable after its tag. -/
def body (v : Var) : List (String × Json) :=
  ("name", .str v.name) :: member? "datatype" (v.datatype.map .str)

theorem members_eq (v : Var) : v.members = ("kind", .str "var") :: v.body := rfl

theorem keys_body (v : Var) : (v.body.map (·.1)).Sublist ["name", "datatype"] :=
  .cons_cons _ (keys_member? ..)

theorem decode_reads (v : Var) : decode.Reads (.obj v.body) v := by
  intro r
  rw [decode, record_of_sublist v.keys_body (by decide) (by decide)]
  simp only [bind, Except.bind, pure, Except.pure]
  rw [required_text (s := v.name), optional_text (x := v.datatype)]
  all_goals simp [body, List.lookup_cons, lookup_member?]

end Var

namespace Const

/-- The members of a stored constant after its tag. -/
def body (c : Const) : List (String × Json) :=
  ("value", c.value.toJson) :: member? "datatype" (c.datatype.map .str)

theorem members_eq (c : Const) : c.members = ("kind", .str "const") :: c.body := rfl

theorem keys_body (c : Const) : (c.body.map (·.1)).Sublist ["value", "datatype"] :=
  .cons_cons _ (keys_member? ..)

theorem decode_reads {c : Const} (finite : c.value.IsFinite) : decode.Reads (.obj c.body) c := by
  intro r
  rw [decode, record_of_sublist c.keys_body (by decide) (by decide)]
  simp only [bind, Except.bind, pure, Except.pure]
  rw [required_ok ?_ (Value.decode_reads finite), optional_text (x := c.datatype)]
  all_goals simp [body, List.lookup_cons, lookup_member?]

end Const

/-! ### Terms and references -/

namespace Term

/-- A constant can be written. -/
def IsFinite : Term → Prop
  | .var _ => True
  | .const c => c.value.IsFinite

theorem decode_reads {t : Term} (finite : t.IsFinite) : decode.Reads t.toJson t := by
  intro r
  cases t with
  | var v =>
    rw [decode, toJson, v.members_eq, tagged_of_sublist v.keys_body (by decide) (by decide)]
    simp only [bind, Except.bind, pure, Except.pure]
    rw [v.decode_reads]
    rfl
  | const c =>
    rw [decode, toJson, c.members_eq, tagged_of_sublist c.keys_body (by decide) (by decide)]
    simp only [bind, Except.bind, pure, Except.pure]
    rw [Const.decode_reads finite]
    rfl

end Term

namespace Ref

def IsFinite (r : Ref) : Prop := ∀ t ∈ r.terms, t.IsFinite

theorem keys_members (r : Ref) :
    (r.members.map (·.1)).Sublist ["predicate_id", "terms", "negated"] := .refl _

theorem decode_reads {r : Ref} (finite : r.IsFinite) : decode.Reads (.obj r.members) r := by
  intro reading
  rw [decode, record_of_sublist r.keys_members (by decide) (by decide)]
  simp only [bind, Except.bind, pure, Except.pure]
  rw [required_text (s := r.schemaId),
    withDefault_ok (a := r.terms) ?_ (list_reads fun t ht => Term.decode_reads (finite t ht)),
    withDefault_ok (a := r.negated) ?_ (bool_reads r.negated)]
  all_goals rfl

end Ref

/-! ### Expressions -/

namespace Expr

mutual

def IsFinite : Expr → Prop
  | .var _ => True
  | .const c => c.value.IsFinite
  | .call _ args => AreFinite args
  | .unify lhs rhs => lhs.IsFinite ∧ rhs.IsFinite
  | .choice condition yes no => condition.IsFinite ∧ yes.IsFinite ∧ no.IsFinite
  | .not e => e.IsFinite
  | .ref r => r.IsFinite

def AreFinite : List Expr → Prop
  | [] => True
  | e :: rest => e.IsFinite ∧ AreFinite rest

end

theorem listToJson_eq_map (es : List Expr) : listToJson es = es.map toJson := by
  induction es with
  | nil => rfl
  | cons e rest ih => rw [listToJson, ih, List.map_cons]

theorem height_le_of_mem {members : List (String × Json)} {m : String × Json} (hm : m ∈ members) :
    (Document.ofJson m.2).height ≤ Document.heightOfMembers (Document.ofMembers members) := by
  induction members with
  | nil => exact absurd hm List.not_mem_nil
  | cons x rest ih =>
    obtain ⟨key, value⟩ := x
    rcases List.mem_cons.1 hm with rfl | hm
    · exact Nat.le_max_left ..
    · exact Nat.le_trans (ih hm) (Nat.le_max_right ..)

/-- The parts of an expression are nested less than the whole. -/
theorem height_lt_of_mem {members : List (String × Json)} {m : String × Json} {fuel : Nat}
    (deep : (Document.ofJson (.obj members)).height < fuel + 1) (hm : m ∈ members) :
    (Document.ofJson m.2).height < fuel := by
  have whole : (Document.ofJson (.obj members)).height =
      Document.heightOfMembers (Document.ofMembers members) + 1 := rfl
  have part := height_le_of_mem hm
  omega

/-! One operator at a time: a whole is read with one unit of fuel more than its parts. -/

section Operators

variable {fuel : Nat}

/-- What is read with one unit of fuel more, for the lemmas below to share. -/
theorem decodeWithin_succ : decodeWithin (fuel + 1) = fun r d => do
    let (kind, body) ← Decode.tagged "kind" tags r d
    let part := decodeWithin fuel
    if kind = "var" then return .var (← Var.decode .heldBack body)
    else if kind = "const" then return .const (← Const.decode .heldBack body)
    else if kind = "ref" then return .ref (← Ref.decode .heldBack body)
    else if kind = "call" then
      let m ← Decode.record "Call" (["op", "args"].map Decode.field) false .heldBack body
      return .call (← m.required "op" Decode.text) (← m.withDefault "args" [] (Decode.list part))
    else if kind = "unify" then
      let m ← Decode.record "Unify" (["lhs", "rhs"].map Decode.field) false .heldBack body
      return .unify (← m.required "lhs" part) (← m.required "rhs" part)
    else if kind = "if" then
      let m ← Decode.record "If" (["cond", "then", "else"].map Decode.field) false .heldBack body
      return .choice (← m.required "cond" part) (← m.required "then" part)
        (← m.required "else" part)
    else
      let m ← Decode.record "Not" (["expr"].map Decode.field) false .heldBack body
      return .not (← m.required "expr" part) := rfl

theorem decodeWithin_var (v : Var) : (decodeWithin (fuel + 1)).Reads (toJson (.var v)) (.var v) := by
  intro r
  rw [toJson, v.members_eq, decodeWithin_succ]
  dsimp only
  rw [tagged_of_sublist v.keys_body (by decide) (by decide)]
  simp only [bind, Except.bind, pure, Except.pure]
  rw [v.decode_reads]
  rfl

theorem decodeWithin_const {c : Const} (finite : c.value.IsFinite) :
    (decodeWithin (fuel + 1)).Reads (toJson (.const c)) (.const c) := by
  intro r
  rw [toJson, c.members_eq, decodeWithin_succ]
  dsimp only
  rw [tagged_of_sublist c.keys_body (by decide) (by decide)]
  simp only [bind, Except.bind, pure, Except.pure]
  rw [Const.decode_reads finite]
  rfl

theorem decodeWithin_ref {a : Ref} (finite : a.IsFinite) :
    (decodeWithin (fuel + 1)).Reads (toJson (.ref a)) (.ref a) := by
  intro r
  rw [toJson, decodeWithin_succ]
  dsimp only
  rw [tagged_of_sublist a.keys_members (by decide) (by decide)]
  simp only [bind, Except.bind, pure, Except.pure]
  rw [Ref.decode_reads finite]
  rfl

theorem decodeWithin_call (op : String) {args : List Expr}
    (parts : ∀ e ∈ args, (decodeWithin fuel).Reads e.toJson e) :
    (decodeWithin (fuel + 1)).Reads (toJson (.call op args)) (.call op args) := by
  have read : (Decode.list (decodeWithin fuel)).Reads (.arr (listToJson args)) args :=
    listToJson_eq_map args ▸ list_reads parts
  intro r
  rw [toJson, decodeWithin_succ]
  dsimp only
  rw [tagged_ofJson (by decide) (by simp)]
  simp only [bind, Except.bind, pure, Except.pure, String.reduceEq, if_true, if_false]
  rw [record_of_sublist (.refl _) (by decide) (by decide)]
  dsimp only
  rw [required_text rfl, withDefault_ok rfl read]

theorem decodeWithin_unify {lhs rhs : Expr} (left : (decodeWithin fuel).Reads lhs.toJson lhs)
    (right : (decodeWithin fuel).Reads rhs.toJson rhs) :
    (decodeWithin (fuel + 1)).Reads (toJson (.unify lhs rhs)) (.unify lhs rhs) := by
  intro r
  rw [toJson, decodeWithin_succ]
  dsimp only
  rw [tagged_ofJson (by decide) (by simp)]
  simp only [bind, Except.bind, pure, Except.pure, String.reduceEq, if_true, if_false]
  rw [record_of_sublist (.refl _) (by decide) (by decide)]
  dsimp only
  rw [required_ok rfl left, required_ok rfl right]

theorem decodeWithin_choice {condition yes no : Expr}
    (first : (decodeWithin fuel).Reads condition.toJson condition)
    (second : (decodeWithin fuel).Reads yes.toJson yes)
    (third : (decodeWithin fuel).Reads no.toJson no) :
    (decodeWithin (fuel + 1)).Reads (toJson (.choice condition yes no))
      (.choice condition yes no) := by
  intro r
  rw [toJson, decodeWithin_succ]
  dsimp only
  rw [tagged_ofJson (by decide) (by simp)]
  simp only [bind, Except.bind, pure, Except.pure, String.reduceEq, if_true, if_false]
  rw [record_of_sublist (.refl _) (by decide) (by decide)]
  dsimp only
  rw [required_ok rfl first, required_ok rfl second, required_ok rfl third]

theorem decodeWithin_not {e : Expr} (part : (decodeWithin fuel).Reads e.toJson e) :
    (decodeWithin (fuel + 1)).Reads (toJson (.not e)) (.not e) := by
  intro r
  rw [toJson, decodeWithin_succ]
  dsimp only
  rw [tagged_ofJson (by decide) (by simp)]
  simp only [bind, Except.bind, pure, Except.pure, String.reduceEq, if_false]
  rw [record_of_sublist (.refl _) (by decide) (by decide)]
  dsimp only
  rw [required_ok rfl part]

end Operators

mutual

/-- An expression is read as it was written when there is fuel for its nesting. -/
theorem decodeWithin_reads {e : Expr} {fuel : Nat} (finite : e.IsFinite)
    (deep : (Document.ofJson e.toJson).height < fuel) : (decodeWithin fuel).Reads e.toJson e := by
  obtain ⟨fuel, rfl⟩ := Nat.exists_eq_succ_of_ne_zero (Nat.ne_zero_of_lt deep)
  -- each part is lower than the whole, so the fuel is enough for the parts too
  match e with
  | .var v => exact decodeWithin_var v
  | .const c => exact decodeWithin_const finite
  | .ref a => exact decodeWithin_ref finite
  | .call op args =>
    have nested : Document.heightOfItems (Document.ofItems (listToJson args)) + 1 < fuel :=
      height_lt_of_mem deep (.tail _ (.tail _ (.head _)))
    exact decodeWithin_call op (decodeWithin_reads_all finite (Nat.lt_of_succ_lt nested))
  | .unify lhs rhs =>
    obtain ⟨finiteLhs, finiteRhs⟩ := finite
    have left := decodeWithin_reads finiteLhs (height_lt_of_mem deep (.tail _ (.head _)))
    have right := decodeWithin_reads finiteRhs (height_lt_of_mem deep (.tail _ (.tail _ (.head _))))
    exact decodeWithin_unify left right
  | .choice condition yes no =>
    obtain ⟨finiteCondition, finiteYes, finiteNo⟩ := finite
    have first := decodeWithin_reads finiteCondition (height_lt_of_mem deep (.tail _ (.head _)))
    have second := decodeWithin_reads finiteYes
      (height_lt_of_mem deep (.tail _ (.tail _ (.head _))))
    have third := decodeWithin_reads finiteNo
      (height_lt_of_mem deep (.tail _ (.tail _ (.tail _ (.head _)))))
    exact decodeWithin_choice first second third
  | .not e =>
    have part := decodeWithin_reads (e := e) finite (height_lt_of_mem deep (.tail _ (.head _)))
    exact decodeWithin_not part

theorem decodeWithin_reads_all {es : List Expr} {fuel : Nat} (finite : AreFinite es)
    (deep : Document.heightOfItems (Document.ofItems (listToJson es)) < fuel) :
    ∀ e ∈ es, (decodeWithin fuel).Reads e.toJson e := by
  match es with
  | [] => nofun
  | e :: rest =>
    obtain ⟨first, others⟩ := finite
    have low := Nat.max_lt.1 deep
    exact List.forall_mem_cons.2
      ⟨decodeWithin_reads first low.1, decodeWithin_reads_all others low.2⟩

end

/-- **An expression is read as it was written.** -/
theorem decode_reads {e : Expr} (finite : e.IsFinite) : decode.Reads e.toJson e := fun r =>
  decodeWithin_reads finite (Nat.lt_succ_self _) r

end Expr

end Clausal
