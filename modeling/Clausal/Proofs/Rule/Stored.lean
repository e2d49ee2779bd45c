import Clausal.Proofs.Number.UnitInterval
import Clausal.Proofs.Rule.Expression
import Clausal.Proofs.Schema.Normal
import Clausal.Proofs.Schema.Payload
import Clausal.Rule.Payload

/-!
# Stored rules are loaded again

Main statement: `Rule.ofPayload_decode_toPayload`. The members of the head lie among those of the
rule: conditions and overrides are taken out by their keys, which no head has, and what is left is
the head as it was written.
-/

namespace Clausal

/-! ### Conditions and overrides -/

section Parts

open Decode Decode.Members Json

theorem NamingMode.lookup_words (m : NamingMode) : words.lookup m.text = some m := by
  cases m <;> rfl

theorem Binding.lookup_words (b : Binding) : words.lookup b.text = some b := by cases b <;> rfl

theorem Overrides.decode_reads (o : Overrides) : decode.Reads o.toJson o := by
  intro r
  rw [decode, toJson, record_of_sublist ?_ (by decide) (by decide)]
  · simp only [bind, Except.bind, pure, Except.pure]
    rw [optional_word NamingMode.lookup_words (x := o.naming), optional_text (x := o.varPrefix),
      optional_word Binding.lookup_words (x := o.binding)]
    all_goals simp [List.lookup_append, lookup_member?]
  · simp only [List.append_assoc]
    iterate 2 apply keys_member?_append
    exact keys_member? ..

namespace Literal

def IsFinite : Literal → Prop
  | .ref r => r.IsFinite
  | .expr e => e.IsFinite

theorem decode_reads {l : Literal} (finite : l.IsFinite) : decode.Reads l.toJson l := by
  intro r
  cases l with
  | ref a =>
    rw [decode, toJson, tagged_of_sublist a.keys_members (by decide) (by decide)]
    simp only [bind, Except.bind, pure, Except.pure]
    rw [Ref.decode_reads finite]
    rfl
  | expr e =>
    rw [decode, toJson, tagged_ofJson (by decide) (by simp)]
    simp only [bind, Except.bind, pure, Except.pure, String.reduceEq, if_false]
    rw [record_of_sublist (.refl _) (by decide) (by decide)]
    dsimp only
    rw [required_ok rfl (Expr.decode_reads finite)]

end Literal

namespace Condition

theorem decode_reads {c : Condition} (finite : ∀ l ∈ c.literals, l.IsFinite)
    (probability : ∀ p ∈ c.prob, p.IsProbability) : decode.Reads c.toJson c := by
  intro r
  have literals := list_reads fun l hl => Literal.decode_reads (finite l hl)
  have prob : ∀ p ∈ c.prob, float.Reads (ofFloat p) p ∧ ofFloat p ≠ .null := fun p hp => by
    have known := (probability p hp).1
    exact ⟨float_reads known, ofFloat_ne_null known⟩
  rw [decode, toJson, record_of_sublist (.refl _) (by decide) (by decide)]
  simp only [bind, Except.bind, pure, Except.pure]
  rw [required_ok rfl literals, optional_or_null (x := c.prob) (f := ofFloat) rfl prob]

theorem checkProbability_eq_ok {c : Condition} (probability : ∀ p ∈ c.prob, p.IsProbability) :
    c.checkProbability = .ok () := by
  unfold checkProbability
  split
  case h_1 p given => exact if_pos ((Binary64.inUnitInterval_iff p).2 (probability p given))
  case h_2 => rfl

end Condition

end Parts

/-! ### Payloads -/

namespace RulePayload

open Decode Decode.Members Json

/-- The members of a stored rule after those of its head. -/
def ownMembers (p : RulePayload) : List (String × Json) :=
  ("conditions", .arr (p.conditions.map Condition.toJson)) ::
    member? "render_configs" (if p.overrides = .none then none else some p.overrides.toJson)

theorem toJson_eq (p : RulePayload) : p.toJson = .obj (p.head.members ++ p.ownMembers) := by
  rw [toJson, List.append_assoc]
  rfl

theorem keys_ownMembers (p : RulePayload) :
    (p.ownMembers.map (·.1)).Sublist ["conditions", "render_configs"] :=
  .cons_cons _ (keys_member? ..)

theorem declaredName?_head {p : RulePayload} {m : String × Document}
    (hm : m ∈ Document.ofMembers p.head.members) : declaredName? ownFields m.1 = none := by
  have all : ∀ k ∈ SchemaPayload.keys, declaredName? ownFields k = none := by decide
  rw [Document.ofMembers_eq_map] at hm
  obtain ⟨m', hm', rfl⟩ := List.mem_map.1 hm
  exact all m'.1 (p.head.keys_members (List.mem_map_of_mem hm'))

theorem declaredName?_own {p : RulePayload} {m : String × Document}
    (hm : m ∈ Document.ofMembers p.ownMembers) : declaredName? ownFields m.1 = some m.1 := by
  have all : ∀ k ∈ ["conditions", "render_configs"], declaredName? ownFields k = some k := by decide
  rw [Document.ofMembers_eq_map] at hm
  obtain ⟨m', hm', rfl⟩ := List.mem_map.1 hm
  exact all m'.1 (p.keys_ownMembers.subset (List.mem_map_of_mem hm'))

theorem declaredMembers_toJson (p : RulePayload) :
    declaredMembers ownFields false
      (Document.ofMembers p.head.members ++ Document.ofMembers p.ownMembers) =
        .ok (Document.ofMembers p.ownMembers) := by
  rw [declaredMembers_append fun m hm => declaredName?_head hm]
  refine declaredMembers_eq_ok ?_ fun m hm => declaredName?_own hm
  rw [Document.ofMembers_eq_map, List.map_map]
  exact (by decide : ["conditions", "render_configs"].Nodup).sublist p.keys_ownMembers

theorem filter_toJson (p : RulePayload) :
    (Document.ofMembers p.head.members ++ Document.ofMembers p.ownMembers).filter
      (fun m => (declaredName? ownFields m.1).isNone) = Document.ofMembers p.head.members := by
  have head : (Document.ofMembers p.head.members).filter
      (fun m => (declaredName? ownFields m.1).isNone) = Document.ofMembers p.head.members :=
    List.filter_eq_self.2 fun m hm => by rw [declaredName?_head hm]; rfl
  have own : (Document.ofMembers p.ownMembers).filter
      (fun m => (declaredName? ownFields m.1).isNone) = [] :=
    List.filter_eq_nil_iff.2 fun m hm => by rw [declaredName?_own hm]; nofun
  rw [List.filter_append, head, own, List.append_nil]

/-- Overrides that want nothing are left out. -/
theorem withDefault_overrides (p : RulePayload) (r : Reading) :
    (⟨r, Document.ofMembers p.ownMembers⟩ : Decode.Members).withDefault "render_configs" .none
      Overrides.decode = .ok p.overrides := by
  by_cases none : p.overrides = .none
  · rw [none]
    exact withDefault_missing (by simp [ownMembers, none, List.lookup_cons, lookup_member?])
  · exact withDefault_ok (by simp [ownMembers, none, List.lookup_cons, lookup_member?])
      p.overrides.decode_reads

/-- A payload of a rule is read as it was written. -/
theorem decode_reads {p : RulePayload} (below : ∀ n ∈ p.head.arity, n < UInt64.size)
    (finite : ∀ c ∈ p.conditions, ∀ l ∈ c.literals, l.IsFinite)
    (probability : ∀ c ∈ p.conditions, ∀ x ∈ c.prob, x.IsProbability) :
    decode.Reads p.toJson p := by
  intro r
  have document : Document.ofJson p.toJson =
      .obj (Document.ofMembers p.head.members ++ Document.ofMembers p.ownMembers) := by
    rw [toJson_eq, Document.ofJson, Document.ofMembers_eq_map, List.map_append,
      ← Document.ofMembers_eq_map, ← Document.ofMembers_eq_map]
  have head : SchemaPayload.decode .heldBack (.obj (Document.ofMembers p.head.members)) =
      .ok p.head := p.head.decode_reads below .heldBack
  have conditions : (Decode.list Condition.decode).Reads
      (.arr (p.conditions.map Condition.toJson)) p.conditions :=
    list_reads fun c hc => Condition.decode_reads (finite c hc) (probability c hc)
  rw [document, decode]
  dsimp only
  rw [declaredMembers_toJson, filter_toJson, head]
  simp only [bind, Except.bind, pure, Except.pure]
  rw [withDefault_ok rfl conditions, withDefault_overrides]

end RulePayload

/-! ### Rules -/

namespace Rule

/-- **A rule is loaded from its payload.** The payload of a rule is read as it was written, and
loading it gives the rule, when its numbers can be written and the source gives the entity schemas
inside its head. The arity of the head counts arguments in memory, so it is below the size of a
machine word. -/
theorem ofPayload_decode_toPayload {r : Rule} {source : Source} (made : r.head.Made)
    (arity : r.head.arity < UInt64.size)
    (finite : ∀ c ∈ r.conditions, ∀ l ∈ c.literals, l.IsFinite)
    (probability : ∀ c ∈ r.conditions, ∀ x ∈ c.prob, x.IsProbability)
    (endpoints : ∀ e ∈ r.head.endpoints, source e.id = .ok e) :
    Decode.ofJson RulePayload.decode r.toPayload.toJson = .ok r.toPayload ∧
      ofPayload r.toPayload source = .ok r := by
  constructor
  · -- the arity is the only number of the payload that can be out of range
    have below : ∀ n ∈ r.toPayload.head.arity, n < UInt64.size := by
      intro n hn
      have declared : r.toPayload.head.arity = some r.head.arity := by
        unfold toPayload
        cases r.head <;> rfl
      exact Option.mem_some_iff.1 (declared ▸ hn) ▸ arity
    exact (RulePayload.decode_reads below finite probability).ofJson
  · have head : Schema.ofPayload r.head.toPayload (fun id => (source id).toOption) = .ok r.head :=
      Schema.ofPayload_eq_self made.isNormal fun e he => by rw [endpoints e he]; rfl
    have checked : r.conditions.forM Condition.checkProbability = .ok () :=
      forM_eq_ok fun c hc => Condition.checkProbability_eq_ok (probability c hc)
    unfold ofPayload toPayload
    dsimp only
    rw [head, ok_bind, checked]
    rfl

/-- A rule for a relation, with every kind of expression. -/
def introduction : Rule where
  head := .rel .knows
  conditions := [
    ⟨[.ref ⟨RelSchema.knows.id,
        [.var ⟨"A", none⟩, .var ⟨"B", some "int"⟩, .const ⟨.int 1, none⟩], true⟩,
      .expr (.call "or" [.not (.var ⟨"A", none⟩),
        .choice (.unify (.var ⟨"A", none⟩) (.var ⟨"B", none⟩))
          (.ref ⟨FactSchema.person.id,
            [.var ⟨"A", none⟩, .const ⟨.float .one, some "float"⟩], false⟩)
          (.const ⟨.str "B", none⟩)])],
     some .one⟩]
  overrides := ⟨some .prefixed, some "V_", none⟩

theorem ofPayload_decode_toPayload_introduction :
    introduction.head.Made ∧ introduction.head.arity < UInt64.size ∧
    (∀ c ∈ introduction.conditions, ∀ l ∈ c.literals, l.IsFinite) ∧
    (∀ c ∈ introduction.conditions, ∀ x ∈ c.prob, x.IsProbability) ∧
    (∀ e ∈ introduction.head.endpoints, (fun _ => .ok (.fact .person) : Source) e.id = .ok e) ∧
    Decode.ofJson RulePayload.decode introduction.toPayload.toJson = .ok introduction.toPayload ∧
      ofPayload introduction.toPayload (fun _ => .ok (.fact .person)) = .ok introduction := by
  have made : introduction.head.Made := Schema.made_iff_isNormal.2 RelSchema.isNormal_knows
  have arity : introduction.head.arity < UInt64.size := by decide +kernel
  have finite : ∀ c ∈ introduction.conditions, ∀ l ∈ c.literals, l.IsFinite := by
    intro c hc l hl
    cases List.mem_singleton.1 hc
    have known : ∀ t ∈ [Term.var ⟨"A", none⟩, .var ⟨"B", some "int"⟩, .const ⟨.int 1, none⟩],
        t.IsFinite := by
      intro t ht
      rcases List.mem_cons.1 ht with rfl | ht
      · trivial
      · rcases List.mem_pair.1 ht with rfl | rfl <;> trivial
    have weighed : ∀ t ∈ [Term.var ⟨"A", none⟩, .const ⟨.float .one, some "float"⟩], t.IsFinite := by
      intro t ht
      rcases List.mem_pair.1 ht with rfl | rfl
      · trivial
      · exact (by decide : Binary64.one.isFinite = true)
    rcases List.mem_pair.1 hl with rfl | rfl
    · exact known
    · exact ⟨trivial, ⟨⟨trivial, trivial⟩, weighed, trivial⟩, trivial⟩
  have probability : ∀ c ∈ introduction.conditions, ∀ x ∈ c.prob, x.IsProbability := by
    intro c hc x hx
    cases List.mem_singleton.1 hc
    cases hx
    exact (Binary64.inUnitInterval_iff _).1 (by decide)
  have endpoints : ∀ e ∈ introduction.head.endpoints,
      (fun _ => .ok (.fact .person) : Source) e.id = .ok e := by
    intro e he
    rcases List.mem_pair.1 he with rfl | rfl <;> rfl
  exact ⟨made, arity, finite, probability, endpoints,
    ofPayload_decode_toPayload made arity finite probability endpoints⟩

end Rule

end Clausal
