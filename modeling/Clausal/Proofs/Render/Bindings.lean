import Clausal.Proofs.Render.Endpoints

/-!
# Bindings that are written out

Main statement: `Writer.body_completed`. A condition may say itself what the variable for a side is
(`Namer.Completes`). It is then written as if the binding had been added, and it no longer matters
whether bindings are.
-/

namespace Clausal

/-! ### The way of binding -/

namespace Writer

/-- A writer that makes bindings in another way. -/
def withBinding (w : Writer) (way : Binding) : Writer :=
  { w with config := { w.config with binding := way } }

variable {w : Writer} {way : Binding}

mutual

theorem expr_withBinding : ∀ e : Expr, (w.withBinding way).expr e = w.expr e
  | .var _ | .const _ | .ref _ => rfl
  | .unify lhs rhs => by rw [expr, expr, expr_withBinding lhs, expr_withBinding rhs]
  | .call op args => by
    rw [expr, expr, exprs_withBinding _ args]
    rfl
  | .choice condition yes no => by
    rw [expr, expr, expr_withBinding condition, expr_withBinding yes, expr_withBinding no]
    rfl
  | .not e => by rw [expr, expr, expr_withBinding e]

theorem exprs_withBinding (around : Bool) :
    ∀ es : List Expr, (w.withBinding way).exprs around es = w.exprs around es
  | [] => rfl
  | e :: rest => by rw [exprs, exprs, expr_withBinding e, exprs_withBinding around rest]

end

theorem literal_withBinding (l : Literal) : (w.withBinding way).literal l = w.literal l := by
  cases l with
  | ref r => rfl
  | expr e => exact expr_withBinding e

variable {s : Schema} {c : Condition} {literals : List String}

/-- How bindings are made does not matter to the literals. -/
theorem Writes.withBinding (writes : w.Writes s c literals) (way : Binding) :
    (w.withBinding way).Writes s c literals where
  apart := writes.apart
  written := by
    rw [show (w.withBinding way).literal = w.literal from funext literal_withBinding]
    exact writes.written

end Writer

/-! ### Bindings as literals -/

/-- An operator that is written as a name applied to its arguments. -/
structure Writer.Copies (w : Writer) (op : String) (arity : Nat) : Prop where
  symbol : infixSymbol? op arity = none
  handler : w.handler? ⟨op, arity, .expr⟩ = none
  mapping : w.mapping? ⟨op, arity, .expr⟩ = none

/-- A literal that makes a variable the endpoint with some variables for its key fields. -/
def RelSchema.bindingLiteral (r : RelSchema) (side : Side) (label : Var) (keys : List Var) :
    Literal :=
  .expr (.unify (.var label) (.call (r.endpoint side).name (keys.map .var)))

/-- The literals with which a condition says itself what the variable for a side is: none where it
has that variable, and else a binding to variables of its own that become the key variables. -/
inductive Namer.Completes (n : Namer) (r : RelSchema) (c : Condition) (side : Side) :
    List Literal → Prop
  | bound (held : side ∉ n.unbound c) : Completes n r c side []
  | added (fresh : side ∈ n.unbound c) (label : Var) (keys : List Var)
      (named : label.name = side.headVar) (own : ∀ key ∈ keys, key.name ∈ c.varNames)
      (spelled : keys.map (fun key => n.spelling key.name) = n.keyVars r side) :
      Completes n r c side [r.bindingLiteral side label keys]

def Condition.append (c : Condition) (literals : List Literal) : Condition :=
  { c with literals := c.literals ++ literals }

theorem Condition.varNames_append (c : Condition) (literals : List Literal) :
    (c.append literals).varNames = c.varNames ++ literals.flatMap Literal.varNames :=
  List.flatMap_append ..

theorem RelSchema.mem_varNames_bindingLiteral {r : RelSchema} {side : Side} {label : Var}
    {keys : List Var} {name : String} :
    name ∈ (r.bindingLiteral side label keys).varNames ↔
      name = label.name ∨ ∃ key ∈ keys, key.name = name := by
  have names : Expr.varOccurrencesOfAll (keys.map .var) = keys.map (·.name) := by
    induction keys with
    | nil => rfl
    | cons key rest ih => exact congrArg (key.name :: ·) ih
  rw [Literal.mem_varNames, bindingLiteral, Literal.varOccurrences, Expr.varOccurrences,
    Expr.varOccurrences, Expr.varOccurrences, names, List.singleton_append, List.mem_cons,
    List.mem_map]

namespace Namer

variable {n : Namer} {r : RelSchema} {c : Condition} {side : Side} {added : List Literal}

/-- The variable for a side is bound either way. -/
theorem Completes.headVar_mem (completes : n.Completes r c side added) :
    n.spelling side.headVar ∈ n.varsOf c ∨ side.headVar ∈ added.flatMap Literal.varNames := by
  cases completes with
  | bound held => exact .inl (not_not.1 (mt mem_unbound.2 held))
  | added _ label keys named =>
    refine .inr (List.mem_flatMap.2 ⟨_, List.mem_singleton_self _, ?_⟩)
    exact RelSchema.mem_varNames_bindingLiteral.2 (.inl named.symm)

/-- What is said for a side has no names but those of the head and of the condition. -/
theorem Completes.varNames_subset (completes : n.Completes r c side added) :
    added.flatMap Literal.varNames ⊆ (Schema.rel r).headNames ++ c.varNames := by
  cases completes with
  | bound => exact List.nil_subset _
  | added _ label keys named own =>
    intro name mem
    rw [List.flatMap_singleton, RelSchema.mem_varNames_bindingLiteral, named] at mem
    rcases mem with rfl | ⟨key, mem, rfl⟩
    · exact List.mem_append_left _ (r.headVar_mem_headNames side)
    · exact List.mem_append_right _ (own key mem)

/-- With what is said for both sides, neither needs a binding. -/
theorem unbound_append {subs objs : List Literal} (sub : n.Completes r c .sub subs)
    (obj : n.Completes r c .obj objs) : n.unbound (c.append (subs ++ objs)) = [] := by
  have kept {name : String} (mem : name ∈ c.varNames ++ (subs ++ objs).flatMap Literal.varNames) :
      n.spelling name ∈ n.varsOf (c.append (subs ++ objs)) := by
    rw [varsOf, Condition.varNames_append]
    exact List.mem_map_of_mem mem
  have bound (side : Side) : n.spelling side.headVar ∈ n.varsOf (c.append (subs ++ objs)) := by
    have either : n.spelling side.headVar ∈ n.varsOf c ∨
        side.headVar ∈ (subs ++ objs).flatMap Literal.varNames := by
      rw [List.flatMap_append, List.mem_append]
      cases side with
      | sub => exact sub.headVar_mem.imp_right .inl
      | obj => exact obj.headVar_mem.imp_right .inr
    rcases either with held | said
    · obtain ⟨name, mem, same⟩ := List.mem_map.1 held
      rw [← same]
      exact kept (List.mem_append_left _ mem)
    · exact kept (List.mem_append_right _ said)
  refine List.eq_nil_iff_forall_not_mem.2 fun side fresh => ?_
  exact mem_unbound.1 fresh (bound side)

end Namer

namespace Writer

variable {w : Writer} {r : RelSchema} {c : Condition} {side : Side}

theorem exprs_var {keys : List Var} (around : Bool)
    (named : ∀ key ∈ keys, w.var key.name = .ok (w.config.namer.spelling key.name)) :
    w.exprs around (keys.map .var) =
      .ok (keys.map fun key => w.config.namer.spelling key.name) := by
  induction keys with
  | nil => rfl
  | cons key rest ih =>
    obtain ⟨first, later⟩ := List.forall_mem_cons.1 named
    have alone : (Expr.var key).isInfixCall = false := rfl
    rw [List.map_cons, exprs, expr, first, ih later, alone, Bool.and_false]
    rfl

theorem application_of_copies {op : String} {args : List String}
    (copies : w.Copies op args.length) : w.application op args = .ok (compound op args) := by
  simp only [application, copies.symbol, copies.handler, copies.mapping]

/-- A binding that is written out is written like one that is added. -/
theorem literal_bindingLiteral
    (apart : w.config.namer.Separates ((Schema.rel r).headNames ++ c.varNames))
    (copies : w.Copies (r.endpoint side).name (r.keyFieldsOf side).length) {label : Var}
    {keys : List Var} (named : label.name = side.headVar)
    (own : ∀ key ∈ keys, key.name ∈ c.varNames)
    (spelled : keys.map (fun key => w.config.namer.spelling key.name) =
      w.config.namer.keyVars r side) :
    w.literal (r.bindingLiteral side label keys) = .ok (w.config.namer.keyBinding r side) := by
  have rendered := apart.spells.rendered
  have head : w.var label.name = .ok (w.config.namer.spelling side.headVar) := by
    rw [named]
    exact rendered _ (List.mem_append_left _ (r.headVar_mem_headNames side))
  have args := exprs_var (infixSymbol? (r.endpoint side).name (keys.map Expr.var).length).isSome
    fun key mem => rendered key.name (List.mem_append_right _ (own key mem))
  have count : (w.config.namer.keyVars r side).length = (r.keyFieldsOf side).length :=
    List.length_map _
  rw [RelSchema.bindingLiteral, literal, expr, expr, head, expr, args, spelled]
  rw [ok_bind, ok_bind, application_of_copies (count ▸ copies)]
  rfl

variable {added subs objs : List Literal} {literals : List String} {text : String}

/-- What is said for a side is written as the binding that would be added. -/
theorem literals_of_completes
    (apart : w.config.namer.Separates ((Schema.rel r).headNames ++ c.varNames))
    (copies : w.Copies (r.endpoint side).name (r.keyFieldsOf side).length)
    (completes : w.config.namer.Completes r c side added) :
    added.mapM w.literal =
      .ok ((if side ∈ w.config.namer.unbound c then [side] else []).map
        (w.config.namer.keyBinding r)) := by
  cases completes with
  | bound held =>
    rw [if_neg held]
    rfl
  | added fresh label keys named own spelled =>
    rw [if_pos fresh, List.mapM_cons, literal_bindingLiteral apart copies named own spelled]
    rfl

/-- With what is said for both sides, a condition has the bindings among its literals. -/
theorem Writes.append (writes : w.Writes (.rel r) c literals)
    (copies : ∀ side, w.Copies (r.endpoint side).name (r.keyFieldsOf side).length)
    (sub : w.config.namer.Completes r c .sub subs)
    (obj : w.config.namer.Completes r c .obj objs) :
    w.Writes (.rel r) (c.append (subs ++ objs))
      (literals ++ (w.config.namer.unbound c).map (w.config.namer.keyBinding r)) where
  apart := by
    refine writes.apart.of_subset (List.append_subset.2 ⟨List.subset_append_left .., ?_⟩)
    rw [Condition.varNames_append, List.flatMap_append]
    exact List.append_subset.2 ⟨List.subset_append_right ..,
      List.append_subset.2 ⟨sub.varNames_subset, obj.varNames_subset⟩⟩
  written := by
    rw [Namer.unbound_eq_append, List.map_append]
    exact mapM_append_eq_ok writes.written (mapM_append_eq_ok
      (literals_of_completes writes.apart (copies .sub) sub)
      (literals_of_completes writes.apart (copies .obj) obj))

/-- A side whose key variables are there can be said to have them. -/
theorem exists_completes (writes : w.Writes (.rel r) c literals)
    (keys : side ∈ w.config.namer.unbound c →
      w.config.namer.keyVars r side ⊆ w.config.namer.varsOf c) :
    ∃ added, w.config.namer.Completes r c side added := by
  by_cases fresh : side ∈ w.config.namer.unbound c
  · have rendered : c.varNames.mapM w.var = .ok (w.config.namer.varsOf c) :=
      writes.apart.right.mapM_render
    obtain ⟨names, own, spelled⟩ := exists_names rendered (keys fresh)
    refine ⟨_, .added fresh ⟨side.headVar, none⟩ (names.map (⟨·, none⟩)) rfl
      (List.forall_mem_map.2 own) ?_⟩
    rw [spelled, List.map_map]
    rfl
  · exact ⟨[], .bound fresh⟩

/-- **Bindings that are added are like those that are written out.** Where the names of endpoints
are copied, each side of a body that is written can be completed, with a binding of its variable to
names of the condition or with nothing; and however this is done, and however bindings are made
then, the body is the same. -/
theorem body_completed
    (copies : ∀ side, w.Copies (r.endpoint side).name (r.keyFieldsOf side).length)
    (auto : w.config.binding = .auto) {index : Nat} (h : w.body (.rel r) index c = .ok text) :
    (∀ side, ∃ added, w.config.namer.Completes r c side added) ∧
      ∀ subs objs, w.config.namer.Completes r c .sub subs → w.config.namer.Completes r c .obj objs →
        ∀ way, (w.withBinding way).body (.rel r) index (c.append (subs ++ objs)) = .ok text := by
  -- the completed condition has what was added among its literals, and nothing is left to add
  obtain ⟨literals, writes, keys, rfl⟩ := (body_rel_eq_ok_iff auto).1 h
  refine ⟨fun side => exists_completes writes (keys side), fun subs objs sub obj way => ?_⟩
  exact body_rel_of_bound ((writes.append copies sub obj).withBinding way)
    (Namer.unbound_append sub obj)

end Writer

/-! ### Where one side is bound -/

/-- Whoever has the smaller number has known the other since 1999, where the variable for the one of
them is said to be a person with that number. -/
def Condition.halfBound : Condition where
  literals := [
    .expr (.unify (.var ⟨"Sub", none⟩) (.call "person" [.var ⟨"number", none⟩])),
    .expr (.call "lt" [.var ⟨"number", none⟩, .var ⟨"obj_number", none⟩]),
    .expr (.unify (.var ⟨"since", none⟩) (.const ⟨.int 1999, none⟩))]
  prob := none

/-- What is left to say about the other. -/
def Literal.otherBound : Literal :=
  RelSchema.knows.bindingLiteral .obj ⟨"Obj", none⟩ [⟨"obj_number", none⟩]

theorem Writer.body_completed_halfBound :
    let w := Writer.plain .empty "prolog" .arrow
    let text := "Sub = person(Number), Number < Obj_number, Since = 1999, Obj = person(Obj_number)"
    (∀ side, w.Copies (RelSchema.knows.endpoint side).name
      (RelSchema.knows.keyFieldsOf side).length) ∧
    w.config.binding = .auto ∧ w.body (.rel .knows) 0 .halfBound = .ok text ∧
    w.config.namer.Completes .knows .halfBound .sub [] ∧
    w.config.namer.Completes .knows .halfBound .obj [.otherBound] ∧
    ∀ way, (w.withBinding way).body (.rel .knows) 0
      (Condition.halfBound.append ([] ++ [.otherBound])) = .ok text := by
  intro w text
  have copies (side : Side) : w.Copies (RelSchema.knows.endpoint side).name
      (RelSchema.knows.keyFieldsOf side).length := by
    cases side <;> exact ⟨by decide, rfl, rfl⟩
  have written : w.body (.rel .knows) 0 .halfBound = .ok text := by decide +kernel
  have sub : w.config.namer.Completes .knows .halfBound .sub [] := .bound (by decide +kernel)
  have obj : w.config.namer.Completes .knows .halfBound .obj [.otherBound] :=
    .added (by decide +kernel) _ _ rfl (by decide +kernel) (by decide +kernel)
  refine ⟨copies, rfl, written, sub, obj, ?_⟩
  exact (body_completed copies rfl written).2 [] [.otherBound] sub obj

end Clausal
