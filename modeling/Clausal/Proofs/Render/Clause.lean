import Clausal.Proofs.Render.Phrase
import Clausal.Render.Dialect

/-!
# Clauses, taken apart

Main statement: `Dialect.renderRule_eq`. A rule is written as clauses, one for each of its
conditions, whose heads and bodies are phrases; bindings that are added to a body are the last of its
phrases.
-/

namespace Clausal

/-- A written clause. -/
structure Clause where
  /-- The lines above it. -/
  above : List String
  /-- What stands in front of its head. -/
  opening : String
  head : Phrase
  body : List Phrase

namespace Clause

def bodyText (style : ChoiceStyle) (body : List Phrase) : String :=
  if body.isEmpty then "true" else commaList (Phrase.texts style body)

def lines (style : ChoiceStyle) (c : Clause) : List String :=
  c.above ++ [c.opening ++ Dialect.clause (c.head.text style) (bodyText style c.body)]

/-- The variables of a clause. -/
def vars (c : Clause) : List String := c.head.vars ++ Phrase.varsOfAll c.body

end Clause

namespace Writer

def headPhrase (w : Writer) (s : Schema) : Except RenderError Phrase := do
  if let .rel r := s then w.checkReserved r
  let _ ← w.config.namer.renderAll s.headNames
  return .apply s.name ((← s.headNames.mapM w.var).map .var)

/-- The phrase of the binding of the variable for a side, unless the variable is bound already. -/
def bindingPhrase (w : Writer) (r : RelSchema) (condition : Nat) (bound : List String)
    (side : Side) : Except RenderError (Option Phrase) := do
  let v ← w.var side.headVar
  if v ∈ bound then return none
  let keyVars ← (r.keyFieldsOf side).mapM fun k => w.var (side.headVar ++ "_" ++ k)
  let missing := keyVars.filter fun k => !bound.contains k
  if missing ≠ [] then throw (.unboundEndpoint r.name condition side missing)
  return some (.unify (.var v) (.apply (r.endpoint side).name (keyVars.map .var)))

/-- The phrases of the bindings to add to the body of a relation rule. -/
def bindingPhrases (w : Writer) (r : RelSchema) (condition : Nat) (c : Condition) :
    Except RenderError (List Phrase) := do
  let bound ← c.varNames.mapM w.var
  let sub ← w.bindingPhrase r condition bound .sub
  let obj ← w.bindingPhrase r condition bound .obj
  return sub.toList ++ obj.toList

def bodyPhrases (w : Writer) (s : Schema) (condition : Nat) (c : Condition) :
    Except RenderError (List Phrase) := do
  let _ ← w.config.namer.renderAll (s.headNames ++ c.varNames)
  let literals ← c.literals.mapM w.literalPhrase
  let added ← match s, w.config.binding with
    | .rel r, .auto => w.bindingPhrases r condition c
    | _, _ => .ok []
  return literals ++ added

/-! ### Heads, bindings and bodies that are found -/

variable {w : Writer}

/-- A head is the name applied to the variables for its names. -/
theorem exists_of_headPhrase {s : Schema} {p : Phrase} (h : w.headPhrase s = .ok p) :
    ∃ vars, s.headNames.mapM w.var = .ok vars ∧ p = .apply s.name (vars.map .var) := by
  have applied {names : List String} {p : Phrase} (h : (do
      let _ ← w.config.namer.renderAll names
      return Phrase.apply s.name ((← names.mapM w.var).map .var)) = .ok p) :
      ∃ vars, names.mapM w.var = .ok vars ∧ p = .apply s.name (vars.map .var) := by
    obtain ⟨-, -, h⟩ := bind_eq_ok.1 h
    obtain ⟨vars, rendered, h⟩ := bind_eq_ok.1 h
    exact ⟨vars, rendered, (Except.ok.inj h).symm⟩
  unfold headPhrase at h
  cases s with
  | fact f => exact applied h
  | rel r => exact applied (check_bind_eq_ok.1 h).2

/-- A binding is added when the variable for a side is not bound, and then all key variables are. -/
theorem exists_of_bindingPhrase {r : RelSchema} {condition : Nat} {bound : List String}
    {side : Side} {added : Option Phrase} (h : w.bindingPhrase r condition bound side = .ok added) :
    ∃ v, w.var side.headVar = .ok v ∧
      (v ∈ bound ∧ added = none ∨ v ∉ bound ∧ ∃ keyVars,
        (r.keyFieldsOf side).mapM (fun k => w.var (side.headVar ++ "_" ++ k)) = .ok keyVars ∧
        keyVars ⊆ bound ∧
        added = some (.unify (.var v) (.apply (r.endpoint side).name (keyVars.map .var)))) := by
  obtain ⟨v, headed, h⟩ := bind_eq_ok.1 h
  refine ⟨v, headed, ?_⟩
  split at h
  case isTrue held => exact .inl ⟨held, (Except.ok.inj h).symm⟩
  case isFalse fresh =>
    obtain ⟨keyVars, keys, h⟩ := bind_eq_ok.1 h
    dsimp only at h
    split at h
    case isTrue => cases h
    case isFalse complete =>
      refine .inr ⟨fresh, keyVars, keys, fun k hk => ?_, (Except.ok.inj h).symm⟩
      have none := List.filter_eq_nil_iff.1 (Decidable.not_not.1 complete) k hk
      simpa using none

/-- The phrases of the bindings that a body gets, if it gets any. -/
def addedPhrases (w : Writer) (s : Schema) (condition : Nat) (c : Condition) :
    Except RenderError (List Phrase) :=
  match s, w.config.binding with
  | .rel r, .auto => w.bindingPhrases r condition c
  | _, _ => .ok []

/-- A body has the phrases of its literals, and then those of bindings. -/
theorem exists_of_bodyPhrases {s : Schema} {condition : Nat} {c : Condition} {body : List Phrase}
    (h : w.bodyPhrases s condition c = .ok body) :
    (∃ kept, w.config.namer.renderAll (s.headNames ++ c.varNames) = .ok kept) ∧
      ∃ literals added, c.literals.mapM w.literalPhrase = .ok literals ∧
        w.addedPhrases s condition c = .ok added ∧ literals ++ added = body := by
  obtain ⟨kept, apart, h⟩ := bind_eq_ok.1 h
  obtain ⟨literals, written, h⟩ := bind_eq_ok.1 h
  refine ⟨⟨kept, apart⟩, literals, ?_⟩
  unfold addedPhrases
  cases s with
  | fact f => exact ⟨[], written, rfl, Except.ok.inj h⟩
  | rel r =>
    cases way : w.config.binding with
    | explicit =>
      rw [way] at h
      exact ⟨[], written, rfl, Except.ok.inj h⟩
    | auto =>
      rw [way] at h
      obtain ⟨added, bindings, h⟩ := bind_eq_ok.1 h
      exact ⟨added, written, bindings, Except.ok.inj h⟩

end Writer

namespace Dialect

/-- The clause of a condition in Prolog. -/
def prologCondition (w : Writer) (s : Schema) (head : Phrase) (index : Nat) (c : Condition) :
    Except RenderError Clause := do
  return ⟨[], "", head, ← w.bodyPhrases s index c⟩

/-- The clause of a condition in ProbLog. -/
def problogCondition (w : Writer) (s : Schema) (head : Phrase) (total index : Nat)
    (c : Condition) : Except RenderError Clause := do
  let (p, origin) ← w.config.probability.resolveRule c.prob
    s!"rule `{s.name}` condition {Text.decimal index}"
  let above := if w.config.comments then [comment s index total p origin] else []
  return ⟨above, annotation p, head, ← w.bodyPhrases s index c⟩

/-- The clauses of conditions, the first of which has the given index. -/
def clausesFrom (lower : Nat → Condition → Except RenderError Clause) (index : Nat) :
    List Condition → Except RenderError (List Clause)
  | [] => .ok []
  | c :: rest => do
    let first ← lower index c
    let others ← clausesFrom lower (index + 1) rest
    return first :: others

def clauses (d : Dialect) (context : RenderContext) (r : Rule) : Except RenderError (List Clause) :=
  let w := Writer.forRule context d.name d.choiceStyle r
  match d with
  | .prolog => do
    let head ← w.headPhrase r.head
    clausesFrom (prologCondition w r.head head) 0 r.conditions
  | .problog => do
    let head ← w.headPhrase r.head
    clausesFrom (problogCondition w r.head head r.conditions.length) 0 r.conditions
  | _ => .error (.unsupportedDialect d.name)

end Dialect

/-! ### The text of the clauses is what is written -/

namespace Phrase

variable {style : ChoiceStyle}

theorem texts_var (names : List String) : texts style (names.map .var) = names := by
  rw [texts_eq_map, List.map_map]
  exact List.map_id _

theorem texts_append (ps qs : List Phrase) :
    texts style (ps ++ qs) = texts style ps ++ texts style qs := by
  simp only [texts_eq_map, List.map_append]

end Phrase

namespace Writer

variable {w : Writer}

/-- A name applied to the variables for some names. -/
theorem apply_names_eq (name : String) (names : List String) :
    (do
      let _ ← w.config.namer.renderAll names
      return compound name (← names.mapM w.var)) =
    Phrase.text w.style <$> (do
      let _ ← w.config.namer.renderAll names
      return .apply name ((← names.mapM w.var).map .var)) := by
  cases w.config.namer.renderAll names with
  | error e => rfl
  | ok _ =>
    cases names.mapM w.var with
    | error e => rfl
    | ok vars =>
      apply congrArg Except.ok
      rw [Phrase.text, Phrase.texts_var]

theorem head_eq (s : Schema) : w.head s = Phrase.text w.style <$> w.headPhrase s := by
  unfold head headPhrase
  cases s with
  | fact f => exact apply_names_eq _ _
  | rel r =>
    dsimp only
    cases w.checkReserved r with
    | error e => rfl
    | ok _ => exact apply_names_eq _ _

theorem sideBinding_eq (r : RelSchema) (condition : Nat) (bound : List String) (side : Side) :
    w.sideBinding r condition bound side =
      Option.map (Phrase.text w.style) <$> w.bindingPhrase r condition bound side := by
  rw [sideBinding, bindingPhrase]
  cases w.var side.headVar with
  | error e => rfl
  | ok v =>
    simp only [ok_bind]
    split
    · rfl
    · cases (r.keyFieldsOf side).mapM fun k => w.var (side.headVar ++ "_" ++ k) with
      | error e => rfl
      | ok keyVars =>
        simp only [ok_bind]
        split
        · rfl
        · apply congrArg (Except.ok ∘ some)
          rw [Phrase.text, Phrase.text, Phrase.text, Phrase.texts_var]

theorem bindings_eq (r : RelSchema) (condition : Nat) (c : Condition) :
    w.bindings r condition c = Phrase.texts w.style <$> w.bindingPhrases r condition c := by
  rw [bindings, bindingPhrases]
  cases c.varNames.mapM w.var with
  | error e => rfl
  | ok bound =>
    simp only [ok_bind, sideBinding_eq]
    cases w.bindingPhrase r condition bound .sub with
    | error e => rfl
    | ok sub =>
      cases w.bindingPhrase r condition bound .obj with
      | error e => rfl
      | ok obj => cases sub <;> cases obj <;> rfl

/-- What is added to a body comes after its literals. -/
theorem bodyText_append (literals : List Phrase) {added : Except RenderError (List String)}
    {phrases : Except RenderError (List Phrase)} (eq : added = Phrase.texts w.style <$> phrases) :
    (do
      let added ← added
      let parts := literals.map (Phrase.text w.style) ++ added
      return if parts.isEmpty then "true" else commaList parts) =
    Clause.bodyText w.style <$> (do return literals ++ (← phrases)) := by
  rw [eq]
  cases phrases with
  | error e => rfl
  | ok ps =>
    apply congrArg Except.ok
    rw [Clause.bodyText, ← Phrase.texts_eq_map, ← Phrase.texts_append, Phrase.texts_eq_map,
      List.isEmpty_map]

theorem body_eq (bare : w.context.IsBare) (s : Schema) (condition : Nat) (c : Condition) :
    w.body s condition c = Clause.bodyText w.style <$> w.bodyPhrases s condition c := by
  unfold body bodyPhrases
  cases w.config.namer.renderAll (s.headNames ++ c.varNames) with
  | error e => rfl
  | ok _ =>
    rw [mapM_eq_map (literal_eq bare), ok_bind, ok_bind]
    cases c.literals.mapM w.literalPhrase with
    | error e => rfl
    | ok literals =>
      have nothing : .ok [] = Phrase.texts w.style <$> (.ok [] : Except RenderError _) := rfl
      cases s with
      | fact f => exact bodyText_append literals nothing
      | rel r =>
        cases w.config.binding with
        | auto => exact bodyText_append literals (bindings_eq r condition c)
        | explicit => exact bodyText_append literals nothing

end Writer

namespace Dialect

variable {w : Writer}

/-- The lines of clauses are the lines that are written, condition by condition. -/
theorem clauseLines_eq {write : Nat → Condition → Except RenderError (List String)}
    {lower : Nat → Condition → Except RenderError Clause}
    (each : ∀ index c, write index c = Clause.lines w.style <$> lower index c) :
    ∀ (index : Nat) (conditions : List Condition), clauseLines write index conditions =
      List.flatMap (Clause.lines w.style) <$> clausesFrom lower index conditions := by
  intro index conditions
  induction conditions generalizing index with
  | nil => rfl
  | cons c rest ih =>
    rw [clauseLines, clausesFrom, each, ih]
    cases lower index c with
    | error e => rfl
    | ok first => cases clausesFrom lower (index + 1) rest <;> rfl

theorem prologClause_eq (bare : w.context.IsBare) (s : Schema) (head : Phrase) (index : Nat)
    (c : Condition) :
    prologClause w s (head.text w.style) index c =
      Clause.lines w.style <$> prologCondition w s head index c := by
  rw [prologClause, prologCondition, Writer.body_eq bare]
  cases w.bodyPhrases s index c with
  | error e => rfl
  | ok body => exact congrArg (Except.ok [·]) (String.empty_append).symm

theorem problogClause_eq (bare : w.context.IsBare) (s : Schema) (head : Phrase)
    (total index : Nat) (c : Condition) :
    problogClause w s (head.text w.style) total index c =
      Clause.lines w.style <$> problogCondition w s head total index c := by
  rw [problogClause, problogCondition, Writer.body_eq bare]
  cases w.config.probability.resolveRule c.prob
    s!"rule `{s.name}` condition {Text.decimal index}" with
  | error e => rfl
  | ok resolved =>
    cases w.bodyPhrases s index c with
    | error e => rfl
    | ok body =>
      rw [ok_bind, ok_bind]
      dsimp only
      cases w.config.comments <;> rfl

/-- A head, and the clauses under it. -/
theorem head_clauses_eq {write : String → Nat → Condition → Except RenderError (List String)}
    {lower : Phrase → Nat → Condition → Except RenderError Clause}
    (each : ∀ head index c, write (head.text w.style) index c =
      Clause.lines w.style <$> lower head index c) (s : Schema) (conditions : List Condition) :
    (do
      let head ← w.head s
      return lines (← clauseLines (write head) 0 conditions)) =
    (lines ∘ List.flatMap (Clause.lines w.style)) <$> (do
      let head ← w.headPhrase s
      clausesFrom (lower head) 0 conditions) := by
  rw [Writer.head_eq]
  cases w.headPhrase s with
  | error e => rfl
  | ok head =>
    show (clauseLines (write (head.text w.style)) 0 conditions >>= _) = _
    rw [clauseLines_eq (each head), ok_bind]
    cases clausesFrom (lower head) 0 conditions <;> rfl

/-- **A rule is written as its clauses, line by line**, where nothing but the source is consulted. -/
theorem renderRule_eq {context : RenderContext} (bare : context.IsBare) (d : Dialect) (r : Rule) :
    d.renderRule context r =
      (lines ∘ List.flatMap (Clause.lines d.choiceStyle)) <$> d.clauses context r := by
  have bare : (Writer.forRule context d.name d.choiceStyle r).context.IsBare := bare
  cases d with
  | prolog => exact head_clauses_eq (fun head => prologClause_eq bare r.head head) _ _
  | problog => exact head_clauses_eq (fun head => problogClause_eq bare r.head head _) _ _
  | cypher | datalog => rfl

end Dialect

end Clausal
