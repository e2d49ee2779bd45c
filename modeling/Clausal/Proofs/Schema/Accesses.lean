import Clausal.Proofs.Record.KeyValues
import Clausal.Proofs.Schema.WellFormed
import Clausal.Record.Terms
import Clausal.Render.Writer
import Clausal.Schema.Payload

/-!
# Accesses by position and by key

Main statement: `Schema.Obtained.wellFormed_inBounds`. A schema that can be obtained is well-formed,
and a relation takes only what is there where it cuts its arguments into parts, where written terms
are grouped by endpoint, where the values of key fields are taken out of a map, and where a bare
value stands for the first key field. Each of these has a form that gives nothing at all when an
access fails; it always gives what the total form gives.
-/

namespace Clausal

/-! ### Parts of a list -/

/-- The items from one position up to another, when the list has that many. -/
def slice? {α : Type} (l : List α) (start stop : Nat) : Option (List α) :=
  if start ≤ stop ∧ stop ≤ l.length then some ((l.take stop).drop start) else none

theorem slice?_eq {α : Type} {l : List α} {start stop : Nat} (ordered : start ≤ stop)
    (inside : stop ≤ l.length) : slice? l start stop = some ((l.take stop).drop start) :=
  if_pos ⟨ordered, inside⟩

theorem slice?_append {α : Type} (xs ys zs : List α) :
    slice? (xs ++ (ys ++ zs)) xs.length (xs.length + ys.length) = some ys := by
  have inside : xs.length + ys.length ≤ (xs ++ (ys ++ zs)).length := by
    rw [List.length_append, List.length_append]
    omega
  rw [slice?_eq (Nat.le_add_right ..) inside, ← List.append_assoc, ← List.length_append,
    List.take_left, List.drop_left]

namespace RelSchema

/-! ### Parts of the signature -/

/-- The names of the arguments, cut out of the signature part by part. -/
def derivedSignature? (r : RelSchema) : Option DerivedSignature := do
  let subs := r.subKeyFields.length
  let objs := r.objKeyFields.length
  let subArgs ← slice? r.signature.args 0 subs
  let objArgs ← slice? r.signature.args subs (subs + objs)
  return ⟨subArgs.map (·.name), objArgs.map (·.name), r.props.names⟩

theorem derivedSignature?_eq (r : RelSchema) : r.derivedSignature? = r.toPayload.derivedSignature := by
  have subs := r.length_argsAt .sub
  have objs := r.length_argsAt .obj
  dsimp only [keyFieldsOf] at subs objs
  have subArgs : slice? r.signature.args 0 r.subKeyFields.length = some (r.argsAt .sub) := by
    have cut := slice?_append [] (r.argsAt .sub) (r.argsAt .obj ++ r.props.args)
    rwa [List.length_nil, Nat.zero_add, List.nil_append, ← r.args_signature, subs] at cut
  have objArgs : slice? r.signature.args r.subKeyFields.length
      (r.subKeyFields.length + r.objKeyFields.length) = some (r.argsAt .obj) := by
    have cut := slice?_append (r.argsAt .sub) (r.argsAt .obj) r.props.args
    rwa [← r.args_signature, subs, objs] at cut
  simp only [derivedSignature?, subArgs, objArgs, Option.bind_eq_bind, Option.bind_some]
  rfl

/-! ### Terms grouped by endpoint -/

/-- The atom for written terms, cut out of them endpoint by endpoint. -/
def atom? (r : RelSchema) (terms : List String) : Option (Except RenderError String) :=
  let subs := r.subKeyFields.length
  let objs := r.objKeyFields.length
  let expected := subs + objs + r.props.length
  if terms.length ≠ expected then some (.error (.relationShape r.name expected terms.length))
  else do
    let sub ← slice? terms 0 subs
    let obj ← slice? terms subs (subs + objs)
    let props ← slice? terms (subs + objs) terms.length
    return .ok (compound r.name (compound r.sub.name sub :: compound r.obj.name obj :: props))

theorem atom?_eq (r : RelSchema) (terms : List String) : r.atom? terms = some (r.atom terms) := by
  rw [atom?, atom]
  split
  case isTrue => rfl
  case isFalse fits =>
    rw [slice?_eq (Nat.zero_le _) (by omega), slice?_eq (Nat.le_add_right ..) (by omega),
      slice?_eq (by omega) le_rfl, List.take_length]
    simp only [List.drop_zero, List.drop_take, Nat.add_sub_cancel_left]
    rfl

/-! ### Values of key fields -/

/-- The identifier of the entity with the given key values at a side. After the names of the values
have been compared with the key fields, there has to be a value for each of these. -/
def endpointEntityId? (r : RelSchema) (side : Side) (keys : FieldMap) :
    Option (Except SchemaError String) :=
  let endpoint := r.endpoint side
  let keyFields := r.keyFieldsOf side
  match keys.keys.find? fun k => !keyFields.contains k with
  | some extra => some (.error (.invalidEndpoint r.name side (.notKeyField extra)))
  | none =>
    let missing := keyFields.filter fun k => !keys.contains k
    if missing ≠ [] then some (.error (.missingEndpointKeyFields r.name side missing))
    else do
      let pairs ← keyFields.mapM fun k => (keys.get? k).map (k, ·)
      return do
        Record.checkValues endpoint.name endpoint.signature.find? pairs
        return Identifier.entity endpoint.id pairs

theorem mapM_get?_eq {fields : List String} {values : FieldMap}
    (complete : ∀ k ∈ fields, values.contains k = true) :
    (fields.mapM fun k => (values.get? k).map (k, ·)) = some (Record.pairsOf fields values) := by
  induction fields with
  | nil => rfl
  | cons field rest ih =>
    obtain ⟨held, complete⟩ := List.forall_mem_cons.1 complete
    obtain ⟨v, found⟩ := Option.isSome_iff_exists.1 held
    rw [List.mapM_cons, ih complete, Record.pairsOf_cons found, found]
    rfl

theorem endpointEntityId?_eq (r : RelSchema) (side : Side) (keys : FieldMap) :
    r.endpointEntityId? side keys = some (Record.endpointEntityId r side keys) := by
  rw [endpointEntityId?, Record.endpointEntityId]
  cases keys.keys.find? fun k => !(r.keyFieldsOf side).contains k with
  | some extra => rfl
  | none =>
    dsimp only
    split
    case isTrue => rfl
    case isFalse complete =>
      rw [mapM_get?_eq (Record.contains_of_missing_eq_nil complete)]
      rfl

/-! ### Bare values -/

/-- The key values that a bare value stands for: it is that of the first key field. -/
def scalarKeys? (r : RelSchema) (side : Side) (mode : ResolveMode) (v : Value) :
    Option (Except SchemaError FieldMap) :=
  if mode ≠ .heuristic then some (.error (.invalidEndpoint r.name side .scalar))
  else if r.subKeyFields.length ≠ 1 ∨ r.objKeyFields.length ≠ 1 then
    some (.error (.heuristicUnavailable r.name))
  else do
    let key ← (r.keyFieldsOf side)[0]?
    return .ok (.ofList [(key, v)])

theorem scalarKeys?_eq (r : RelSchema) (side : Side) (mode : ResolveMode) (v : Value) :
    r.scalarKeys? side mode v = some (Terms.endpointKeys r side mode (.scalar v)) := by
  cases mode with
  | strict => rfl
  | heuristic =>
    -- a single key field at both sides is one at this side
    have single (one : r.subKeyFields.length = 1 ∧ r.objKeyFields.length = 1) :
        (r.keyFieldsOf side).length = 1 := by
      cases side with
      | sub => exact one.1
      | obj => exact one.2
    rw [scalarKeys?, if_neg (not_not.2 rfl)]
    by_cases one : r.subKeyFields.length = 1 ∧ r.objKeyFields.length = 1
    · obtain ⟨key, keyFields⟩ := List.length_eq_one_iff.1 (single one)
      rw [if_neg (not_or.2 ⟨not_not.2 one.1, not_not.2 one.2⟩)]
      simp only [Terms.endpointKeys, keyFields, if_pos one]
      rfl
    · rw [if_pos (not_and_or.1 one)]
      cases keyFields : r.keyFieldsOf side with
      | nil => simp only [Terms.endpointKeys, keyFields]
      | cons key rest => simp only [Terms.endpointKeys, keyFields, if_neg one]

/-! ### All accesses -/

/-- Whatever is asked of a relation, it takes only what is there. -/
structure InBounds (r : RelSchema) : Prop where
  signature : r.derivedSignature? = r.toPayload.derivedSignature
  atom : ∀ terms, r.atom? terms = some (r.atom terms)
  keys : ∀ side keys, r.endpointEntityId? side keys = some (Record.endpointEntityId r side keys)
  scalar : ∀ side mode v,
    r.scalarKeys? side mode v = some (Terms.endpointKeys r side mode (.scalar v))

end RelSchema

namespace Schema

/-- **What schemas guarantee.** The arguments of a schema are in order, its key fields are among them,
and a relation has the arguments of its two sides and its props; it never takes anything that is
not there. -/
theorem Obtained.wellFormed_inBounds {s : Schema} (h : s.Obtained) :
    s.WellFormed ∧ ∀ r, s = .rel r → r.InBounds :=
  ⟨h.wellFormed, fun r _ =>
    ⟨r.derivedSignature?_eq, r.atom?_eq, r.endpointEntityId?_eq, r.scalarKeys?_eq⟩⟩

theorem Obtained.wellFormed_inBounds_knows :
    Schema.Obtained (.rel .knows) ∧ Schema.WellFormed (.rel .knows) ∧ RelSchema.knows.InBounds := by
  have obtained : Schema.Obtained (.rel .knows) := by
    refine obtained_iff_isNormal.2 ⟨RelSchema.isNormal_knows, fun e he => ?_⟩
    rcases List.mem_pair.1 he with rfl | rfl
    exacts [FactSchema.isNormal_person, FactSchema.isNormal_person]
  obtain ⟨wellFormed, inBounds⟩ := obtained.wellFormed_inBounds
  exact ⟨obtained, wellFormed, inBounds _ rfl⟩

end Schema

end Clausal
