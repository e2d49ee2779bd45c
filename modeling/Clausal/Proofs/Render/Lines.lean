import Clausal.Proofs.Render.Blocks
import Clausal.Proofs.Render.ClauseParts
import Clausal.Proofs.Render.Layout
import Clausal.Proofs.Render.Variables

/-!
# The lines of a rule

Main statement: `Dialect.lines_of_renderRule`. A rule is written as one line for each of its
conditions, or as two where comments are wanted, unless a line has a newline in itself. It has one
exactly when a name or a string that is copied into it does (`Writer.copied`); nothing else that is
written has a newline.
-/

namespace Clausal

namespace Text

/-- There is a newline in a text. -/
def Broken (s : String) : Prop := '\n' ∈ s.toList

instance (s : String) : Decidable (Broken s) := inferInstanceAs (Decidable ('\n' ∈ s.toList))

theorem broken_append {s t : String} : Broken (s ++ t) ↔ Broken s ∨ Broken t := by
  rw [Broken, String.toList_append, List.mem_append]
  rfl

theorem not_broken_of_isWordChar {s : String} (all : ∀ c ∈ s.toList, Piece.isWordChar c = true) :
    ¬ Broken s := by
  intro broken
  exact absurd (all _ broken) (by decide)

end Text

open Text (Broken broken_append)

/-! ### Phrases -/

theorem broken_commaList {ts : List String} : Broken (commaList ts) ↔ ∃ t ∈ ts, Broken t := by
  induction ts with
  | nil => simp [commaList, Broken]
  | cons t rest ih =>
    cases rest with
    | nil => simp [commaList]
    | cons u rest =>
      rw [commaList] at ih
      rw [commaList, String.intercalate_cons_cons, broken_append, broken_append, ih,
        List.exists_mem_cons_iff]
      simp [Broken]

theorem broken_compound {name : String} {args : List String} :
    Broken (compound name args) ↔ Broken name ∨ ∃ t ∈ args, Broken t := by
  rw [compound]
  cases args with
  | nil => simp
  | cons a rest =>
    simp only [List.isEmpty_cons, Bool.false_eq_true, if_false, broken_append, broken_commaList]
    simp [Broken]

theorem broken_grouped {needed : Bool} {t : String} : Broken (grouped needed t) ↔ Broken t := by
  cases needed <;> simp [grouped, Broken]

theorem broken_choice {style : ChoiceStyle} {c y n : String} :
    Broken (Writer.choice style c y n) ↔ (Broken c ∨ Broken y) ∨ Broken n := by
  cases style <;> simp [Writer.choice, Broken] <;> tauto

/-- There is a newline in one of some parts. -/
def AnyBroken (xs : List Part) : Prop := ∃ x ∈ xs, Broken x.text

theorem anyBroken_cons {x : Part} {xs : List Part} :
    AnyBroken (x :: xs) ↔ Broken x.text ∨ AnyBroken xs :=
  List.exists_mem_cons_iff ..

theorem anyBroken_append {xs ys : List Part} :
    AnyBroken (xs ++ ys) ↔ AnyBroken xs ∨ AnyBroken ys := by
  simp only [AnyBroken, List.mem_append, or_and_right, exists_or]

theorem anyBroken_singleton {x : Part} : AnyBroken [x] ↔ Broken x.text := by simp [AnyBroken]

namespace Phrase

variable {style : ChoiceStyle}

mutual

/-- What stands between the parts of a phrase has no newline. -/
theorem broken_text : ∀ p : Phrase, Broken (text style p) ↔ AnyBroken p.parts
  | .var t | .word t => by
    rw [text, parts, anyBroken_singleton, Part.text]
  | .unify lhs rhs => by
    rw [text, parts, broken_append, broken_append, broken_text lhs, broken_text rhs,
      anyBroken_append]
    simp [Broken]
  | .between symbol lhs rhs => by
    have blank : ¬ Broken " " := by decide
    rw [text, parts, anyBroken_cons, anyBroken_append]
    simp only [broken_append, broken_grouped, broken_text lhs, broken_text rhs, Part.text]
    tauto
  | .apply name args => by
    rw [text, parts, broken_compound, broken_texts args, anyBroken_cons, Part.text]
  | .choice condition yes no => by
    rw [text, parts, broken_choice, broken_text condition, broken_text yes, broken_text no,
      anyBroken_append, anyBroken_append]
  | .not e => by
    rw [text, parts, broken_append, broken_append, broken_text e]
    simp [Broken]
  | .negated atom => by
    rw [text, parts, broken_append, broken_text atom]
    simp [Broken]

theorem broken_texts : ∀ ps : List Phrase,
    (∃ t ∈ texts style ps, Broken t) ↔ AnyBroken (partsOfAll ps)
  | [] => by simp [texts, partsOfAll, AnyBroken]
  | p :: rest => by
    rw [texts, partsOfAll, List.exists_mem_cons_iff, broken_text p, broken_texts rest,
      anyBroken_append]

end

end Phrase

theorem Clause.broken_bodyText {style : ChoiceStyle} {body : List Phrase} :
    Broken (bodyText style body) ↔ AnyBroken (Phrase.partsOfAll body) := by
  have texts : (∃ t ∈ Phrase.texts style body, Broken t) ↔ AnyBroken (Phrase.partsOfAll body) :=
    Phrase.broken_texts body
  rw [← texts, bodyText]
  cases body with
  | nil => simp [Broken, Phrase.texts]
  | cons p rest => exact broken_commaList

/-! ### Variables and constants -/

theorem not_broken_of_isVariable {v : String} (h : isVariable v.toList = true) : ¬ Broken v :=
  Text.not_broken_of_isWordChar (Piece.isWordChar_of_isVariable h)

theorem not_broken_text (x : Binary64) (style : Binary64.Style) : ¬ Broken (x.text style) := by
  refine Text.not_broken_of_isWordChar ?_
  rw [Binary64.text, String.toList_ofList]
  exact Piece.isWordChar_of_mem_spell style x

/-- The quotes of an atom and the backslashes in it are no newlines. -/
theorem broken_quoteAtom {s : String} :
    Broken (String.ofList (quoteAtom s.toList)) ↔ Broken s := by
  have quoted (c : Char) : '\n' ∈ quoteAtomChar c ↔ '\n' = c := by
    unfold quoteAtomChar
    split
    case isTrue special => simp
    case isFalse => exact List.mem_singleton
  rw [Broken, String.toList_ofList, quoteAtom, List.cons_append, List.mem_cons, List.mem_append,
    List.mem_flatMap]
  simp [quoted, Broken]

def Value.string? : Value → Option String
  | .str s => some s
  | .bool _ | .int _ | .float _ => none

/-- A string keeps its newlines when it is made a term; other constants have none. -/
theorem broken_toTerm {v : Value} {t : String} (h : v.toTerm = .ok t) :
    Broken t ↔ ∃ s ∈ v.string?, Broken s := by
  unfold Value.toTerm at h
  split at h
  case h_1 b =>
    cases h
    cases b <;> simp [Broken, Value.string?]
  case h_2 i =>
    cases h
    refine iff_of_false ?_ (by simp [Value.string?])
    refine Text.not_broken_of_isWordChar ?_
    rw [String.toList_ofList]
    exact Piece.isWordChar_of_mem_spellInt _
  case h_3 x =>
    split at h
    case isTrue =>
      cases h
      exact iff_of_false (not_broken_text x .term) (by simp [Value.string?])
    case isFalse => cases h
  case h_4 s =>
    -- newlines are copied, whether the string stands in quotes or not
    cases h
    rw [Value.string?]
    split
    case isTrue => simp
    case isFalse => simp [broken_quoteAtom]

/-! ### Nodes -/

theorem not_broken_of_mem_symbols {symbol : String} (h : symbol ∈ symbols) : ¬ Broken symbol := by
  have all : symbols.all (fun s => !s.toList.contains '\n') = true := by decide +kernel
  simpa [Broken] using List.all_eq_true.1 all symbol h

theorem Phrase.anyBroken_atomPhrase {s : Schema} {terms : List Phrase} {p : Phrase}
    (h : s.atomPhrase terms = .ok p) :
    AnyBroken p.parts ↔ (∃ name ∈ s.functors, Broken name) ∨ AnyBroken (partsOfAll terms) := by
  simp only [AnyBroken, mem_parts_atomPhrase h, or_and_right, exists_or, List.mem_map,
    exists_exists_and_eq_and, Part.text]

def Term.string? : Term → Option String
  | .var _ => none
  | .const c => c.value.string?

/-- The names and strings that are copied when a node is written. -/
def Node.copied (source : Source) : Node → List String
  | .var _ => []
  | .value v => v.string?.toList
  | .operator op arity => (Node.operator op arity).functors source
  | .ref r => (Node.ref r).functors source ++ r.terms.filterMap Term.string?

namespace Writer

variable {w : Writer}

theorem anyBroken_of_terms {terms : List Term} {ps : List Phrase}
    (h : terms.mapM w.termPhrase = .ok ps) :
    AnyBroken (Phrase.partsOfAll ps) ↔ ∃ s ∈ terms.filterMap Term.string?, Broken s := by
  induction terms generalizing ps with
  | nil =>
    cases h
    simp [Phrase.partsOfAll, AnyBroken]
  | cons t rest ih =>
    obtain ⟨p, qs, first, others, rfl⟩ := mapM_cons_eq_ok.1 h
    rw [Phrase.partsOfAll, anyBroken_append, ih others]
    cases t with
    | var v =>
      obtain ⟨x, named, rfl⟩ := map_eq_ok.1 first
      have unbroken := not_broken_of_isVariable (Namer.isVariable_of_render named)
      rw [Phrase.parts, anyBroken_singleton, List.filterMap_cons_none rfl]
      exact or_iff_right unbroken
    | const c =>
      obtain ⟨x, written, rfl⟩ := map_eq_ok.1 first
      rw [Phrase.parts, anyBroken_singleton, Part.text, broken_toTerm written,
        List.filterMap_cons]
      cases eq : c.value.string? <;> simp [Term.string?, eq]

theorem anyBroken_of_partsOf {n : Node} {ps : List Part} (h : w.partsOf n = .ok ps) :
    AnyBroken ps ↔ ∃ s ∈ n.copied w.context.source, Broken s := by
  cases n with
  | var name =>
    obtain ⟨t, named, rfl⟩ := map_eq_ok.1 h
    rw [anyBroken_singleton, Node.copied]
    exact iff_of_false (not_broken_of_isVariable (Namer.isVariable_of_render named)) (by simp)
  | value v =>
    obtain ⟨t, written, rfl⟩ := map_eq_ok.1 h
    rw [anyBroken_singleton, Node.copied, Part.text, broken_toTerm written]
    simp
  | operator op arity =>
    cases h
    rw [anyBroken_singleton, Phrase.operatorPart, Node.copied, Node.functors]
    cases found : infixSymbol? op arity with
    | none => simp [Part.text]
    | some symbol => exact iff_of_false (not_broken_of_mem_symbols (mem_symbols found)) (by simp)
  | ref r =>
    obtain ⟨p, written, rfl⟩ := map_eq_ok.1 h
    obtain ⟨s, terms, known, each, written⟩ := exists_of_refPhrase written
    rw [Phrase.anyBroken_atomPhrase written, anyBroken_of_terms each, Node.copied, Node.functors,
      known]
    simp only [Except.toOption, Option.map_some, Option.getD_some, List.mem_append, or_and_right,
      exists_or]

theorem anyBroken_of_partsOfAll {nodes : List Node} {ps : List Part}
    (h : w.partsOfAll nodes = .ok ps) :
    AnyBroken ps ↔ ∃ s ∈ nodes.flatMap (Node.copied w.context.source), Broken s := by
  induction nodes generalizing ps with
  | nil =>
    cases h
    simp [AnyBroken]
  | cons n rest ih =>
    obtain ⟨first, later, here, others, rfl⟩ := partsOfAll_cons_eq_ok.1 h
    rw [anyBroken_append, anyBroken_of_partsOf here, ih others, List.flatMap_cons]
    simp only [List.mem_append, or_and_right, exists_or]

theorem anyBroken_of_isVarOrFunctor {xs : List Part} (h : ∀ x ∈ xs, IsVarOrFunctor x) :
    AnyBroken xs ↔ ∃ s ∈ xs.filterMap Part.functor?, Broken s := by
  induction xs with
  | nil => simp [AnyBroken]
  | cons x rest ih =>
    obtain ⟨here, later⟩ := List.forall_mem_cons.1 h
    rw [anyBroken_cons, ih later]
    rcases here with ⟨v, valid, rfl⟩ | ⟨name, rfl⟩
    · rw [List.filterMap_cons_none rfl]
      exact or_iff_right (not_broken_of_isVariable valid)
    · have kept : Part.functor? (.functor name) = some name := rfl
      rw [List.filterMap_cons_some kept, List.exists_mem_cons_iff, Part.text]

/-- The names and strings that are copied into a clause: the name of the head, those of operators,
predicates and endpoints in the body, and the constants that are strings. -/
def copied (w : Writer) (s : Schema) (c : Condition) : List String :=
  s.name :: (c.nodes.flatMap (Node.copied w.context.source) ++ w.addedEndpoints s c)

/-- A clause has a newline where something that is copied into it has one. -/
theorem anyBroken_of_phrases {s : Schema} {head : Phrase} (hh : w.headPhrase s = .ok head)
    {index : Nat} {c : Condition} {body : List Phrase} (hb : w.bodyPhrases s index c = .ok body) :
    AnyBroken head.parts ∨ AnyBroken (Phrase.partsOfAll body) ↔
      ∃ t ∈ w.copied s c, Broken t := by
  obtain ⟨named, headParts⟩ := parts_of_headPhrase hh
  obtain ⟨-, literals, added, written, bindings, rfl⟩ := exists_of_bodyPhrases hb
  have nodes : w.partsOfAll c.nodes = .ok (Phrase.partsOfAll literals) := parts_of_literals written
  obtain ⟨endpoints, addedParts⟩ := parts_of_addedPhrases bindings
  have ofHead : AnyBroken head.parts ↔ Broken s.name := by
    rw [anyBroken_of_isVarOrFunctor headParts, ← Phrase.functors, named]
    simp
  have ofBindings : AnyBroken (Phrase.partsOfAll added) ↔
      ∃ t ∈ w.addedEndpoints s c, Broken t := by
    rw [anyBroken_of_isVarOrFunctor addedParts, ← Phrase.functorsOfAll, endpoints]
  rw [Phrase.partsOfAll_append, anyBroken_append, ofHead, anyBroken_of_partsOfAll nodes, ofBindings,
    copied]
  simp only [List.mem_cons, List.mem_append, or_and_right, exists_or, exists_eq_left]

end Writer

/-! ### Lines -/

namespace Dialect

variable {d : Dialect} {w : Writer} {r : Rule} {index : Nat} {c : Condition}

theorem not_broken_decimal (n : Nat) : ¬ Broken (Text.decimal n) := by
  refine Text.not_broken_of_isWordChar ?_
  rw [Text.decimal, String.toList_ofList]
  exact Piece.isWordChar_of_mem_toDigits

/-- The name of the head is copied into the comment, too. -/
theorem broken_comment {s : Schema} {total : Nat} {p : Binary64} {origin : ProbabilityOrigin} :
    Broken (comment s index total p origin) ↔ Broken s.name := by
  have word : ¬ Broken origin.text := by cases origin <;> decide
  have number := not_broken_decimal
  have probability := not_broken_text p .term
  simp only [comment, toString, broken_append, word, number, probability, or_false]
  simp [Broken]

theorem broken_clause {head body : String} :
    Broken (clause head body) ↔ Broken head ∨ Broken body := by
  rw [clause, broken_append, broken_append, broken_append]
  simp [Broken]

theorem broken_annotated {p : Binary64} {text : String} :
    Broken ( annotation p ++ text) ↔ Broken text := by
  unfold annotation
  rw [broken_append, broken_append]
  have number := not_broken_text p .term
  simp only [number, false_or]
  simp [Broken]

/-- The name of the head is in the clause, so that a comment breaks no block that its clause does
not break. -/
theorem broken_of_isBlock {text : String} {block : List String}
    (h : IsBlock w r index c text d block) (named : Broken r.head.name → Broken text) :
    (∃ l ∈ block, Broken l) ↔ Broken text := by
  cases h with
  | prolog => simp
  | problog resolved =>
    split
    · simp only [List.exists_mem_cons_iff, broken_comment, broken_annotated]
      simpa using named
    · simp [broken_annotated]

end Dialect

/-! ### Cutting at newlines -/

namespace Text

/-- A text cut at each newline. -/
def linesOf (s : String) : List (List Char) := s.toList.splitOn '\n'

theorem linesOf_of_not_broken {s : String} (h : ¬ Broken s) : linesOf s = [s.toList] :=
  List.splitOn_eq_singleton h

theorem length_linesOf_pos (s : String) : 1 ≤ (linesOf s).length :=
  List.length_pos_iff.2 (List.splitOn_ne_nil _ _)

theorem one_lt_length_linesOf {s : String} (h : Broken s) : 1 < (linesOf s).length := by
  obtain ⟨before, after, eq⟩ := List.append_of_mem h
  have first : 0 < (before.splitOn '\n').length := List.length_pos_iff.2 (List.splitOn_ne_nil _ _)
  have second : 0 < (after.splitOn '\n').length := List.length_pos_iff.2 (List.splitOn_ne_nil _ _)
  rw [linesOf, eq, List.splitOn_append_cons_self, List.length_append]
  omega

/-- Texts on lines of their own have the lines of each, in turn. -/
theorem linesOf_lines {ts : List String} (ne : ts ≠ []) :
    linesOf (Dialect.lines ts) = ts.flatMap linesOf := by
  induction ts with
  | nil => exact absurd rfl ne
  | cons t rest ih =>
    cases rest with
    | nil => simp [Dialect.lines]
    | cons u rest =>
      -- the newline behind the first text ends its last line
      have later := ih (List.cons_ne_nil _ _)
      rw [Dialect.lines, linesOf] at later
      have newline : "\n".toList = ['\n'] := rfl
      rw [Dialect.lines, linesOf, String.intercalate_cons_cons, String.toList_append,
        String.toList_append, newline, List.append_assoc, List.singleton_append,
        List.splitOn_append_cons_self, later]
      exact (List.flatMap_cons (f := linesOf)).symm

theorem linesOf_lines_of_not_broken {ts : List String} (ne : ts ≠ []) (h : ∀ t ∈ ts, ¬ Broken t) :
    linesOf (Dialect.lines ts) = ts.map String.toList := by
  rw [linesOf_lines ne, List.flatMap_congr fun t ht => linesOf_of_not_broken (h t ht)]
  exact List.flatMap_pure_eq_map _ ts

theorem length_le_length_linesOf (ts : List String) :
    ts.length ≤ (ts.flatMap linesOf).length := by
  induction ts with
  | nil => exact Nat.le_refl 0
  | cons t rest ih =>
    have first := length_linesOf_pos t
    rw [List.flatMap_cons, List.length_append, List.length_cons]
    omega

theorem length_lt_length_linesOf {ts : List String} (h : ∃ t ∈ ts, Broken t) :
    ts.length < (linesOf (Dialect.lines ts)).length := by
  obtain ⟨t, ht, broken⟩ := h
  rw [linesOf_lines (List.ne_nil_of_mem ht)]
  obtain ⟨before, after, rfl⟩ := List.append_of_mem ht
  have front := length_le_length_linesOf before
  have middle := one_lt_length_linesOf broken
  have back := length_le_length_linesOf after
  simp only [List.flatMap_append, List.flatMap_cons, List.length_append, List.length_cons]
  omega

end Text

/-! ### Rules -/

namespace Dialect

variable {d : Dialect} {w : Writer} {r : Rule} {index : Nat} {c : Condition}

/-- Whether there is a comment above each clause. -/
def commented (d : Dialect) (w : Writer) : Bool := decide (d = .problog) && w.config.comments

/-- The line of a clause, with the line of a comment above it or not. -/
inductive IsClauseLines : Bool → List String → Prop
  | plain {line} (ends : line.toList.getLast? = some '.') : IsClauseLines false [line]
  | commented {above line} (starts : above.toList.head? = some '%')
    (ends : line.toList.getLast? = some '.') : IsClauseLines true [above, line]

theorem getLast?_clause (opening head body : String) :
    (opening ++ clause head body).toList.getLast? = some '.' := by
  rw [clause, ← String.append_assoc, String.toList_append]
  exact List.getLast?_concat

theorem isClauseLines_of_isBlock {head body : String} {block : List String}
    (h : IsBlock w r index c (clause head body) d block) :
    IsClauseLines (d.commented w) block := by
  have ends (opening : String) := getLast?_clause opening head body
  cases h with
  | prolog =>
    have plain := ends ""
    rw [String.empty_append] at plain
    exact .plain plain
  | @problog p origin resolved =>
    unfold commented
    cases w.config.comments
    · exact .plain (ends _)
    · exact .commented (by simp [comment, toString]) (ends _)

theorem length_of_isClauseLines {comments : Bool} {block : List String}
    (h : IsClauseLines comments block) : block.length = if comments then 2 else 1 := by
  cases h <;> rfl

/-- A block has a newline in one of its lines where something that is copied into it has one. -/
theorem broken_block (bare : w.context.IsBare) {head body : String}
    (hh : w.head r.head = .ok head) (hb : w.body r.head index c = .ok body) {block : List String}
    (h : IsBlock w r index c (clause head body) d block) :
    (∃ l ∈ block, Broken l) ↔ ∃ t ∈ w.copied r.head c, Broken t := by
  rw [Writer.head_eq] at hh
  rw [Writer.body_eq bare] at hb
  obtain ⟨headPhrase, headed, rfl⟩ := map_eq_ok.1 hh
  obtain ⟨phrases, bodied, rfl⟩ := map_eq_ok.1 hb
  have line : Broken (clause (headPhrase.text w.style) (Clause.bodyText w.style phrases)) ↔
      ∃ t ∈ w.copied r.head c, Broken t := by
    rw [broken_clause, Phrase.broken_text, Clause.broken_bodyText]
    exact Writer.anyBroken_of_phrases headed bodied
  rw [← line]
  refine broken_of_isBlock h fun named => line.2 ⟨_, List.mem_cons_self, named⟩

/-- Some line of a rule has a newline where something that is copied into a clause has one. -/
theorem broken_blocks (bare : w.context.IsBare) {head : String} (hh : w.head r.head = .ok head)
    {block : Nat → List String} (each : ∀ i c, r.conditions[i]? = some c →
      ∃ body, w.body r.head i c = .ok body ∧ IsBlock w r i c (clause head body) d (block i)) :
    (∃ l ∈ (List.range r.conditions.length).flatMap block, Broken l) ↔
      ∃ c ∈ r.conditions, ∃ t ∈ w.copied r.head c, Broken t := by
  constructor
  · rintro ⟨l, hl, broken⟩
    obtain ⟨i, hi, hl⟩ := List.mem_flatMap.1 hl
    have found := List.getElem?_eq_getElem (List.mem_range.1 hi)
    obtain ⟨body, hb, isBlock⟩ := each i _ found
    exact ⟨_, List.getElem_mem _, (broken_block bare hh hb isBlock).1 ⟨l, hl, broken⟩⟩
  · rintro ⟨c, hc, broken⟩
    obtain ⟨i, hi, rfl⟩ := List.mem_iff_getElem.1 hc
    obtain ⟨body, hb, isBlock⟩ := each i _ (List.getElem?_eq_getElem hi)
    obtain ⟨l, hl, broken⟩ := (broken_block bare hh hb isBlock).2 broken
    exact ⟨l, List.mem_flatMap.2 ⟨i, List.mem_range.2 hi, hl⟩, broken⟩

theorem length_blocks {comments : Bool} {n : Nat} {block : Nat → List String}
    (each : ∀ i < n, IsClauseLines comments (block i)) :
    ((List.range n).flatMap block).length = n * if comments then 2 else 1 := by
  have lengths : ∀ i ∈ List.range n, (block i).length = if comments then 2 else 1 :=
    fun i hi => length_of_isClauseLines (each i (List.mem_range.1 hi))
  rw [List.length_flatMap, List.map_congr_left lengths, List.map_const', List.length_range,
    List.sum_replicate_nat]

/-- **The lines of a rule that is written are its clauses, condition by condition, as long as no name
and no string with a newline is copied into one**; otherwise there are more lines. A clause ends with
a full stop, and where comments are wanted one stands above each clause. -/
theorem lines_of_renderRule {context : RenderContext} (bare : context.IsBare)
    (ne : r.conditions ≠ []) {text : String} (h : d.renderRule context r = .ok text) :
    let w := Writer.forRule context d.name d.choiceStyle r
    ∃ head, w.head r.head = .ok head ∧ ∃ block : Nat → List String,
      (∀ i c, r.conditions[i]? = some c → ∃ body, w.body r.head i c = .ok body ∧
        IsBlock w r i c (clause head body) d (block i) ∧
        IsClauseLines (d.commented w) (block i)) ∧
      ∃ written, written = (List.range r.conditions.length).flatMap block ∧
        text = lines written ∧
        written.length = r.conditions.length * (if d.commented w then 2 else 1) ∧
        ((∀ c ∈ r.conditions, ∀ t ∈ w.copied r.head c, ¬ Broken t) →
          Text.linesOf text = written.map String.toList) ∧
        ((∃ c ∈ r.conditions, ∃ t ∈ w.copied r.head c, Broken t) →
          written.length < (Text.linesOf text).length) := by
  intro w
  obtain ⟨head, hh, block, rfl, each⟩ := blocks_of_renderRule h
  have shaped : ∀ i c, r.conditions[i]? = some c → ∃ body, w.body r.head i c = .ok body ∧
      IsBlock w r i c (clause head body) d (block i) ∧ IsClauseLines (d.commented w) (block i) := by
    intro i c hc
    obtain ⟨body, hb, isBlock⟩ := each i c hc
    exact ⟨body, hb, isBlock, isClauseLines_of_isBlock isBlock⟩
  have count : ((List.range r.conditions.length).flatMap block).length =
      r.conditions.length * (if d.commented w then 2 else 1) := by
    refine length_blocks fun i hi => ?_
    obtain ⟨_, -, -, shape⟩ := shaped i _ (List.getElem?_eq_getElem hi)
    exact shape
  have broken := broken_blocks bare hh each
  refine ⟨head, hh, block, shaped, _, rfl, rfl, count, fun clean => ?_, fun dirty => ?_⟩
  · -- lines without newlines are cut where they were joined
    refine Text.linesOf_lines_of_not_broken ?_ fun t ht broke => ?_
    · refine List.ne_nil_of_length_pos ?_
      rw [count]
      exact Nat.mul_pos (List.length_pos_iff.2 ne) (by split <;> decide)
    · obtain ⟨c, hc, t, ht, broke⟩ := broken.1 ⟨t, ht, broke⟩
      exact clean c hc t ht broke
  · exact Text.length_lt_length_linesOf (broken.2 dirty)

end Dialect

/-! ### A string of two lines -/

/-- Whoever has two lines for a number. -/
def Rule.multiline : Rule where
  head := .fact .person
  conditions := [⟨[.expr (.unify (.var ⟨"number", none⟩) (.const ⟨.str "a\nb", none⟩))], none⟩]
  overrides := .none

theorem Dialect.renderRule_multiline : prolog.renderRule .empty .multiline =
    .ok "person(Number, Weight) :- Number = 'a\nb'." := by
  decide +kernel

/-- The clause of the only condition goes over two lines. -/
theorem Dialect.multiline_two_lines : Rule.multiline.conditions.length = 1 ∧
    prolog.renderRule .empty .multiline = .ok "person(Number, Weight) :- Number = 'a\nb'." ∧
    Text.linesOf "person(Number, Weight) :- Number = 'a\nb'." =
      ["person(Number, Weight) :- Number = 'a".toList, "b'.".toList] := by
  refine ⟨rfl, renderRule_multiline, by decide +kernel⟩

/-- The clause of who has the smaller number is on one line. -/
theorem Dialect.lines_seniority : RenderContext.empty.IsBare ∧ Rule.seniority.conditions ≠ [] ∧
    ∃ text, prolog.renderRule .empty .seniority = .ok text ∧ (Text.linesOf text).length = 1 := by
  have ne : Rule.seniority.conditions ≠ [] := List.cons_ne_nil _ _
  obtain ⟨head, -, block, -, written, -, eq, count, clean, -⟩ :=
    lines_of_renderRule RenderContext.isBare_empty ne renderRule_seniority
  refine ⟨RenderContext.isBare_empty, ne, _, renderRule_seniority, ?_⟩
  rw [clean (by decide +kernel), List.length_map, count]
  rfl

end Clausal
