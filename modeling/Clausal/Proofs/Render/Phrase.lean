import Clausal.Proofs.Outcomes
import Clausal.Render.Writer

/-!
# What is written, taken apart

A phrase is a written expression of which it is still known what each part stands for: a variable, a
constant, a symbol between two parts. Writing an expression is finding its phrase and then its text
(`Writer.expr_eq`), where neither a library nor a runtime has a say.
-/

namespace Clausal

/-- A written expression. -/
inductive Phrase
  /-- A variable. -/
  | var (text : String)
  /-- A constant. -/
  | word (text : String)
  /-- The equation of two parts. -/
  | unify (lhs rhs : Phrase)
  /-- An operator with its symbol between its two arguments. -/
  | between (symbol : String) (lhs rhs : Phrase)
  /-- A name applied to arguments, or alone. -/
  | apply (name : String) (args : List Phrase)
  | choice (condition yes no : Phrase)
  | not (e : Phrase)
  /-- The negation of an atom. -/
  | negated (atom : Phrase)

/-- A text in parentheses, if it needs them. -/
def grouped (needed : Bool) (text : String) : String := if needed then "(" ++ text ++ ")" else text

namespace Phrase

/-- Whether there is the symbol of an operator between two parts. -/
def isBetween : Phrase → Bool
  | .between .. => true
  | _ => false

mutual

def text (style : ChoiceStyle) : Phrase → String
  | .var t | .word t => t
  | .unify lhs rhs => text style lhs ++ " = " ++ text style rhs
  | .between symbol lhs rhs =>
    grouped lhs.isBetween (text style lhs) ++ " " ++ symbol ++ " " ++
      grouped rhs.isBetween (text style rhs)
  | .apply name args => compound name (texts style args)
  | .choice condition yes no =>
    Writer.choice style (text style condition) (text style yes) (text style no)
  | .not e => "\\+ (" ++ text style e ++ ")"
  | .negated atom => "\\+ " ++ text style atom

def texts (style : ChoiceStyle) : List Phrase → List String
  | [] => []
  | p :: rest => text style p :: texts style rest

end

theorem texts_eq_map {style : ChoiceStyle} (ps : List Phrase) :
    texts style ps = ps.map (text style) := by
  induction ps with
  | nil => rfl
  | cons p rest ih => rw [texts, ih, List.map_cons]

mutual

def vars : Phrase → List String
  | .var t => [t]
  | .word _ => []
  | .unify lhs rhs | .between _ lhs rhs => vars lhs ++ vars rhs
  | .apply _ args => varsOfAll args
  | .choice condition yes no => vars condition ++ vars yes ++ vars no
  | .not e => vars e
  | .negated atom => vars atom

def varsOfAll : List Phrase → List String
  | [] => []
  | p :: rest => vars p ++ varsOfAll rest

end

theorem varsOfAll_eq_flatMap (ps : List Phrase) : varsOfAll ps = ps.flatMap vars := by
  induction ps with
  | nil => rfl
  | cons p rest ih => rw [varsOfAll, ih, List.flatMap_cons]

/-- An operator applied to arguments. -/
def call (op : String) (args : List Phrase) : Phrase :=
  match infixSymbol? op args.length, args with
  | some symbol, [a, b] => .between symbol a b
  | _, _ => .apply op args

end Phrase

/-- The atom of a relation, whose key fields are grouped by endpoint. -/
def RelSchema.atomPhrase (r : RelSchema) (terms : List Phrase) : Except RenderError Phrase :=
  let subs := r.subKeyFields.length
  let objs := r.objKeyFields.length
  let expected := subs + objs + r.props.length
  if terms.length ≠ expected then .error (.relationShape r.name expected terms.length)
  else .ok (.apply r.name (.apply r.sub.name (terms.take subs) ::
    .apply r.obj.name ((terms.drop subs).take objs) :: terms.drop (subs + objs)))

def Schema.atomPhrase (s : Schema) (terms : List Phrase) : Except RenderError Phrase :=
  match s with
  | .fact f => .ok (.apply f.name terms)
  | .rel r => r.atomPhrase terms

/-- Nothing but the source is consulted. -/
structure RenderContext.IsBare (context : RenderContext) : Prop where
  library : context.library = none
  handlers : context.handlers = none

/-- A context that knows no predicate. -/
def RenderContext.empty : RenderContext :=
  ⟨fun id => .error (.unknownSchemaId id), none, none, .default⟩

theorem RenderContext.isBare_empty : empty.IsBare := ⟨rfl, rfl⟩

namespace Writer

def termPhrase (w : Writer) : Term → Except RenderError Phrase
  | .var v => .var <$> w.var v.name
  | .const c => .word <$> c.value.toTerm

/-- The phrase of a reference, whether or not it is negated. -/
def refPhrase (w : Writer) (r : Ref) : Except RenderError Phrase := do
  let s ← (w.context.source r.schemaId).mapError fun _ => .unknownPredicate r.schemaId
  let terms ← r.terms.mapM w.termPhrase
  s.atomPhrase terms

mutual

def phrase (w : Writer) : Expr → Except RenderError Phrase
  | .var v => .var <$> w.var v.name
  | .const c => .word <$> c.value.toTerm
  | .ref r => if r.negated then .error (.negatedRefInExpr r.schemaId) else w.refPhrase r
  | .unify lhs rhs => do
    let l ← phrase w lhs
    let r ← phrase w rhs
    return .unify l r
  | .call op args => .call op <$> phrases w args
  | .choice condition yes no => do
    let c ← phrase w condition
    let y ← phrase w yes
    let n ← phrase w no
    return .choice c y n
  | .not e => .not <$> phrase w e

def phrases (w : Writer) : List Expr → Except RenderError (List Phrase)
  | [] => .ok []
  | e :: rest => do
    let p ← phrase w e
    let others ← phrases w rest
    return p :: others

end

def literalPhrase (w : Writer) : Literal → Except RenderError Phrase
  | .ref r => (if r.negated then .negated else id) <$> w.refPhrase r
  | .expr e => w.phrase e

/-! ### The text of the phrase is what is written -/

variable {w : Writer}

theorem term_eq (t : Term) : w.term t = Phrase.text w.style <$> w.termPhrase t := by
  cases t with
  | var v =>
    rw [term, termPhrase]
    cases w.var v.name <;> rfl
  | const c =>
    rw [term, termPhrase]
    cases c.value.toTerm <;> rfl

theorem atom_rel_eq {style : ChoiceStyle} (r : RelSchema) (terms : List Phrase) :
    r.atom (terms.map (Phrase.text style)) = Phrase.text style <$> r.atomPhrase terms := by
  rw [RelSchema.atom, RelSchema.atomPhrase, List.length_map]
  split
  · rfl
  · apply congrArg Except.ok
    simp only [Phrase.text, Phrase.texts_eq_map, List.map_cons, List.map_take, List.map_drop]

theorem atom_eq {style : ChoiceStyle} (s : Schema) (terms : List Phrase) :
    atom (.schema s) (terms.map (Phrase.text style)) = Phrase.text style <$> s.atomPhrase terms := by
  cases s with
  | fact f =>
    rw [← Phrase.texts_eq_map]
    rfl
  | rel r => exact atom_rel_eq r terms

theorem refAtom_eq (bare : w.context.IsBare) (r : Ref) :
    w.refAtom r = Phrase.text w.style <$> w.refPhrase r := by
  rw [refAtom, refPhrase, resolve, bare.library, mapM_eq_map term_eq]
  cases w.context.source r.schemaId with
  | error e => rfl
  | ok s =>
    cases r.terms.mapM w.termPhrase with
    | error e => rfl
    | ok terms => exact atom_eq s terms

theorem isBetween_atomPhrase {s : Schema} {terms : List Phrase} {p : Phrase}
    (h : s.atomPhrase terms = .ok p) : p.isBetween = false := by
  cases s with
  | fact f =>
    cases h
    rfl
  | rel r =>
    rw [Schema.atomPhrase, RelSchema.atomPhrase] at h
    split at h
    · cases h
    · cases h
      rfl

end Writer

namespace Phrase

theorem infixSymbol?_eq_none {op : String} {arity : Nat} (ne : arity ≠ 2) :
    infixSymbol? op arity = none := if_neg ne

/-- Either there is a symbol for an operator and its two arguments, or the operator is applied. -/
theorem call_cases (op : String) (args : List Phrase) :
    (∃ symbol a b, args = [a, b] ∧ infixSymbol? op 2 = some symbol ∧
      call op args = .between symbol a b) ∨
    infixSymbol? op args.length = none ∧ call op args = .apply op args := by
  cases found : infixSymbol? op args.length with
  | none =>
    refine .inr ⟨rfl, ?_⟩
    unfold call
    rw [found]
  | some symbol =>
    have two : args.length = 2 := by
      refine Decidable.byContradiction fun ne => ?_
      rw [infixSymbol?_eq_none ne] at found
      cases found
    match args, two with
    | [a, b], _ =>
      refine .inl ⟨symbol, a, b, rfl, found, ?_⟩
      unfold call
      rw [found]

theorem isBetween_call (op : String) (args : List Phrase) :
    (call op args).isBetween = (infixSymbol? op args.length).isSome := by
  rcases call_cases op args with ⟨symbol, a, b, rfl, found, eq⟩ | ⟨none, eq⟩
  · rw [eq, List.length_cons, List.length_singleton, found]
    rfl
  · rw [eq, none]
    rfl

end Phrase

namespace Writer

variable {w : Writer}

theorem length_phrases {args : List Expr} {ps : List Phrase} (h : w.phrases args = .ok ps) :
    ps.length = args.length := by
  induction args generalizing ps with
  | nil =>
    cases h
    rfl
  | cons e rest ih =>
    obtain ⟨p, -, h⟩ := bind_eq_ok.1 h
    obtain ⟨others, written, h⟩ := bind_eq_ok.1 h
    cases h
    rw [List.length_cons, List.length_cons, ih written]

/-- An expression is written with a symbol between its arguments when its phrase has one. -/
theorem isBetween_phrase {e : Expr} {p : Phrase} (h : w.phrase e = .ok p) :
    p.isBetween = e.isInfixCall := by
  cases e with
  | var v =>
    obtain ⟨t, -, rfl⟩ := map_eq_ok.1 h
    rfl
  | const c =>
    obtain ⟨t, -, rfl⟩ := map_eq_ok.1 h
    rfl
  | call op args =>
    obtain ⟨ps, written, rfl⟩ := map_eq_ok.1 h
    rw [Phrase.isBetween_call, length_phrases written]
    rfl
  | unify lhs rhs =>
    obtain ⟨l, -, h⟩ := bind_eq_ok.1 h
    obtain ⟨r, -, h⟩ := bind_eq_ok.1 h
    cases h
    rfl
  | choice condition yes no =>
    obtain ⟨c, -, h⟩ := bind_eq_ok.1 h
    obtain ⟨y, -, h⟩ := bind_eq_ok.1 h
    obtain ⟨n, -, h⟩ := bind_eq_ok.1 h
    cases h
    rfl
  | not e =>
    obtain ⟨p, -, rfl⟩ := map_eq_ok.1 h
    rfl
  | ref r =>
    rw [phrase] at h
    split at h
    case isTrue => cases h
    case isFalse =>
      obtain ⟨s, -, h⟩ := bind_eq_ok.1 h
      obtain ⟨terms, -, h⟩ := bind_eq_ok.1 h
      exact isBetween_atomPhrase h

theorem application_pair {op symbol a b : String} (found : infixSymbol? op 2 = some symbol) :
    w.application op [a, b] = .ok (a ++ " " ++ symbol ++ " " ++ b) := by
  unfold application
  dsimp only [List.length_cons, List.length_nil]
  rw [found]

theorem application_bare (bare : w.context.IsBare) {op : String} {args : List String}
    (none : infixSymbol? op args.length = Option.none) :
    w.application op args = .ok (compound op args) := by
  have unhandled : w.handler? ⟨op, args.length, .expr⟩ = Option.none := by
    rw [handler?, bare.handlers]
    rfl
  have unmapped : w.mapping? ⟨op, args.length, .expr⟩ = Option.none := by
    rw [mapping?, bare.library]
    rfl
  unfold application
  dsimp only
  rw [none, unhandled, unmapped]

/-- How an operator is written around the texts of its arguments. -/
theorem application_eq (bare : w.context.IsBare) (op : String) (ps : List Phrase) :
    w.application op (ps.map fun p =>
        grouped ((infixSymbol? op ps.length).isSome && p.isBetween) (p.text w.style)) =
      .ok ((Phrase.call op ps).text w.style) := by
  rcases Phrase.call_cases op ps with ⟨symbol, a, b, rfl, found, eq⟩ | ⟨none, eq⟩
  · have around : (infixSymbol? op [a, b].length).isSome = true := by
      rw [List.length_cons, List.length_singleton, found]
      rfl
    rw [eq, around]
    exact application_pair found
  · rw [eq, none, application_bare bare (by rwa [List.length_map]), Phrase.text,
      Phrase.texts_eq_map]
    rfl

mutual

/-- An expression is written as the text of its phrase. -/
theorem expr_eq (bare : w.context.IsBare) :
    ∀ e : Expr, w.expr e = Phrase.text w.style <$> w.phrase e
  | .var v => term_eq (.var v)
  | .const c => term_eq (.const c)
  | .ref r => by
    rw [expr, phrase, refAtom_eq bare]
    split <;> rfl
  | .unify lhs rhs => by
    rw [expr, phrase, expr_eq bare lhs, expr_eq bare rhs]
    cases w.phrase lhs with
    | error e => rfl
    | ok l => cases w.phrase rhs <;> rfl
  | .call op args => by
    rw [expr, phrase, exprs_eq bare args]
    cases written : w.phrases args with
    | error e => rfl
    | ok ps =>
      rw [← length_phrases written]
      exact application_eq bare op ps
  | .choice condition yes no => by
    rw [expr, phrase, expr_eq bare condition, expr_eq bare yes, expr_eq bare no]
    cases w.phrase condition with
    | error e => rfl
    | ok c =>
      cases w.phrase yes with
      | error e => rfl
      | ok y => cases w.phrase no <;> rfl
  | .not e => by
    rw [expr, phrase, expr_eq bare e]
    cases w.phrase e <;> rfl

theorem exprs_eq (bare : w.context.IsBare) {around : Bool} :
    ∀ args : List Expr, w.exprs around args =
      List.map (fun p => grouped (around && p.isBetween) (p.text w.style)) <$> w.phrases args
  | [] => rfl
  | e :: rest => by
    rw [exprs, phrases, expr_eq bare e, exprs_eq bare rest]
    cases first : w.phrase e with
    | error e => rfl
    | ok p =>
      rw [← isBetween_phrase first]
      cases w.phrases rest <;> rfl

end

theorem literal_eq (bare : w.context.IsBare) (l : Literal) :
    w.literal l = Phrase.text w.style <$> w.literalPhrase l := by
  cases l with
  | ref r =>
    rw [literal, literalPhrase, refAtom_eq bare]
    cases w.refPhrase r with
    | error e => rfl
    | ok p =>
      cases negated : r.negated
      · rfl
      · rfl
  | expr e => exact expr_eq bare e

end Writer

end Clausal
