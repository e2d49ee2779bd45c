import Clausal.Proofs.Render.Clause
import Clausal.Proofs.Render.Naming
import Clausal.Proofs.Render.Parts

/-!
# The parts of a clause

Main statement: `Writer.functors_of_phrases`. Around the literals of a body, whose parts are known
node by node, a clause has a head and bindings. Nothing is in these but variables and names of
schemas, so all the functors of a clause are known from its rule.
-/

namespace Clausal

namespace Writer

variable {w : Writer}

/-- The name of the endpoint in the binding that is added for a side, if one is added. -/
def addedEndpoint? (w : Writer) (r : RelSchema) (c : Condition) (side : Side) : Option String :=
  if w.config.namer.spelling side.headVar ∈ c.varNames.map w.config.namer.spelling then none
  else some (r.endpoint side).name

/-- The names of the endpoints in the bindings that are added to a body. -/
def addedEndpoints (w : Writer) (s : Schema) (c : Condition) : List String :=
  match s, w.config.binding with
  | .rel r, .auto => (w.addedEndpoint? r c .sub).toList ++ (w.addedEndpoint? r c .obj).toList
  | _, _ => []

/-- The functors of a clause: the name of the head, those in the literals, and the endpoints in
bindings that are added. -/
def functors (w : Writer) (s : Schema) (c : Condition) : List String :=
  s.name :: (c.nodes.flatMap (Node.functors w.context.source) ++ w.addedEndpoints s c)

/-- A variable that a name has become, or a functor. -/
def IsVarOrFunctor (x : Part) : Prop :=
  (∃ v : String, isVariable v.toList = true ∧ x = .var v) ∨ ∃ name, x = .functor name

theorem isVarOrFunctor_of_vars {α : Type} {names : List α} {name : α → String}
    {vars : List String} (h : names.mapM (fun a => w.var (name a)) = .ok vars) :
    ∀ x ∈ vars.map Part.var, IsVarOrFunctor x := by
  intro x hx
  obtain ⟨v, hv, rfl⟩ := List.mem_map.1 hx
  exact .inl ⟨v, forall_of_mapM h (fun _ _ => Namer.isVariable_of_render) v hv, rfl⟩

/-- The functor of a head is its name, and nothing else is in it but variables. -/
theorem parts_of_headPhrase {s : Schema} {p : Phrase} (h : w.headPhrase s = .ok p) :
    p.functors = [s.name] ∧ ∀ x ∈ p.parts, IsVarOrFunctor x := by
  obtain ⟨vars, rendered, rfl⟩ := exists_of_headPhrase h
  rw [Phrase.functors_apply, Phrase.functorsOfAll, Phrase.parts, Phrase.partsOfAll_var,
    Part.functors_var]
  exact ⟨rfl, List.forall_mem_cons.2 ⟨.inr ⟨_, rfl⟩, isVarOrFunctor_of_vars rendered⟩⟩

/-- The functor of a binding is the name of the endpoint, and nothing else in it but variables. -/
theorem parts_of_bindingPhrase {r : RelSchema} {index : Nat} {c : Condition} {bound : List String}
    (rendered : c.varNames.mapM w.var = .ok bound) {side : Side} {added : Option Phrase}
    (h : w.bindingPhrase r index bound side = .ok added) :
    Phrase.functorsOfAll added.toList = (w.addedEndpoint? r c side).toList ∧
      ∀ x ∈ Phrase.partsOfAll added.toList, IsVarOrFunctor x := by
  obtain ⟨v, headed, alternatives⟩ := exists_of_bindingPhrase h
  -- what is looked for among the variables can be looked for among the spellings of the names
  have known : v ∈ bound ↔
      w.config.namer.spelling side.headVar ∈ c.varNames.map w.config.namer.spelling := by
    rw [Namer.mapM_render rendered, Namer.spelling_of_render headed]
  rw [addedEndpoint?]
  rcases alternatives with ⟨held, rfl⟩ | ⟨fresh, keyVars, keys, -, rfl⟩
  · rw [if_pos (known.1 held)]
    exact ⟨rfl, fun x hx => absurd hx List.not_mem_nil⟩
  · rw [if_neg fun held => fresh (known.2 held)]
    have parts : Phrase.partsOfAll [.unify (.var v) (.apply (r.endpoint side).name
        (keyVars.map .var))] = .var v :: .functor (r.endpoint side).name :: keyVars.map .var := by
      simp only [Phrase.partsOfAll, Phrase.parts, Phrase.partsOfAll_var, List.append_nil]
      rfl
    rw [Phrase.functorsOfAll, Option.toList_some, parts]
    constructor
    · exact congrArg (_ :: ·) (Part.functors_var keyVars)
    · have first : IsVarOrFunctor (.var v) := .inl ⟨v, Namer.isVariable_of_render headed, rfl⟩
      have second : IsVarOrFunctor (.functor (r.endpoint side).name) := .inr ⟨_, rfl⟩
      exact List.forall_mem_cons.2 ⟨first, List.forall_mem_cons.2
        ⟨second, isVarOrFunctor_of_vars keys⟩⟩

theorem parts_of_addedPhrases {s : Schema} {index : Nat} {c : Condition} {added : List Phrase}
    (h : w.addedPhrases s index c = .ok added) :
    Phrase.functorsOfAll added = w.addedEndpoints s c ∧
      ∀ x ∈ Phrase.partsOfAll added, IsVarOrFunctor x := by
  have nothing : ∀ x ∈ Phrase.partsOfAll [], IsVarOrFunctor x :=
    fun x hx => absurd hx List.not_mem_nil
  unfold addedPhrases at h
  unfold addedEndpoints
  cases s with
  | fact f =>
    cases h
    exact ⟨rfl, nothing⟩
  | rel r =>
    cases way : w.config.binding <;> rw [way] at h
    case explicit =>
      cases h
      exact ⟨rfl, nothing⟩
    case auto =>
      obtain ⟨bound, rendered, h⟩ := bind_eq_ok.1 h
      obtain ⟨sub, first, h⟩ := bind_eq_ok.1 h
      obtain ⟨obj, second, h⟩ := bind_eq_ok.1 h
      cases h
      obtain ⟨subFunctors, subParts⟩ := parts_of_bindingPhrase rendered first
      obtain ⟨objFunctors, objParts⟩ := parts_of_bindingPhrase rendered second
      rw [Phrase.functorsOfAll_append, Phrase.partsOfAll_append, subFunctors, objFunctors]
      exact ⟨rfl, List.forall_mem_append.2 ⟨subParts, objParts⟩⟩

end Writer

def Clause.functors (c : Clause) : List String := c.head.functors ++ Phrase.functorsOfAll c.body

/-- **The functors of a clause are known from its rule**: they are copies of names. -/
theorem Writer.functors_of_phrases {w : Writer} {s : Schema} {head : Phrase}
    (hh : w.headPhrase s = .ok head) {index : Nat} {c : Condition} {body : List Phrase}
    (hb : w.bodyPhrases s index c = .ok body) (above : List String) (opening : String) :
    Clause.functors ⟨above, opening, head, body⟩ = w.functors s c := by
  obtain ⟨-, literals, added, written, bindings, rfl⟩ := exists_of_bodyPhrases hb
  have nodes : w.partsOfAll c.nodes = .ok (Phrase.partsOfAll literals) := parts_of_literals written
  rw [Clause.functors, (parts_of_headPhrase hh).1, Phrase.functorsOfAll_append,
    (parts_of_addedPhrases bindings).1, Phrase.functorsOfAll, functors_of_partsOfAll nodes]
  rfl

end Clausal
