import Clausal.Proofs.Render.Words

/-!
# Pieces of clauses

Main statement: `Readable.chars_inj`. A text that is put together from words, operators and commas
determines them, if no two words stand side by side. The first character tells what comes next; a
word ends where there is a character that no word has, and a group ends at its parenthesis.
-/

namespace Clausal

/-- A piece of a text. -/
inductive Piece
  /-- A name, a number or a quoted atom. -/
  | word (text : String)
  /-- An operator, with a blank on both sides. -/
  | operator (symbol : String)
  | comma
  | negation
  /-- Pieces in parentheses. -/
  | group (inner : List Piece)

mutual

def Piece.chars : Piece → List Char
  | .word text => text.toList
  | .operator symbol => ' ' :: symbol.toList ++ [' ']
  | .comma => [',', ' ']
  | .negation => ['\\', '+', ' ']
  | .group inner => '(' :: Piece.charsOfAll inner ++ [')']

def Piece.charsOfAll : List Piece → List Char
  | [] => []
  | p :: rest => Piece.chars p ++ Piece.charsOfAll rest

end

namespace Piece

theorem charsOfAll_append (ps qs : List Piece) :
    charsOfAll (ps ++ qs) = charsOfAll ps ++ charsOfAll qs := by
  induction ps with
  | nil => rfl
  | cons p rest ih => rw [List.cons_append, charsOfAll, charsOfAll, ih, List.append_assoc]

theorem charsOfAll_cons_append (p : Piece) (ps : List Piece) (rest : List Char) :
    charsOfAll (p :: ps) ++ rest = p.chars ++ (charsOfAll ps ++ rest) := by
  rw [charsOfAll, List.append_assoc]

/-- What comes first in the text of a piece. -/
def first : Piece → Lead
  | .word _ => .word
  | .operator _ => .operator
  | .comma => .comma
  | .negation => .negation
  | .group _ => .opening

def firstOfAll : List Piece → Lead
  | [] => .ending
  | p :: _ => p.first

/-! ### Pieces in a row -/

/-- Lists that are cut at the first item of a kind have the same cut. -/
theorem append_cons_inj {α : Type} {P : α → Prop} {a a' : α} (ha : P a) (ha' : P a') {xs : List α} :
    ∀ {xs' ys ys' : List α}, (∀ x ∈ xs, ¬ P x) → (∀ x ∈ xs', ¬ P x) →
      xs ++ a :: ys = xs' ++ a' :: ys' → xs = xs' ∧ a = a' ∧ ys = ys' := by
  induction xs with
  | nil =>
    intro xs' ys ys' _ none' eq
    cases xs' with
    | nil => exact ⟨rfl, List.cons.inj eq⟩
    | cons x' xs' =>
      exact absurd (List.head_eq_of_cons_eq eq ▸ ha) (none' x' List.mem_cons_self)
  | cons x xs ih =>
    intro xs' ys ys' none none' eq
    cases xs' with
    | nil => exact absurd (List.head_eq_of_cons_eq eq ▸ ha') (none x List.mem_cons_self)
    | cons x' xs' =>
      obtain ⟨rfl, later⟩ := List.cons.inj eq
      obtain ⟨rfl, same⟩ :=
        ih (List.forall_mem_cons.1 none).2 (List.forall_mem_cons.1 none').2 later
      exact ⟨rfl, same⟩

/-- Pieces that are known from their text: words and operators are spelled as such, and no two words
stand side by side. -/
inductive Readable : List Piece → Prop
  | nil : Readable []
  | word {text rest} (word : IsWord text.toList) (apart : firstOfAll rest ≠ .word)
    (later : Readable rest) : Readable (.word text :: rest)
  | operator {symbol rest} (solid : ∀ c ∈ symbol.toList, ¬ c = ' ') (later : Readable rest) :
    Readable (.operator symbol :: rest)
  | comma {rest} (later : Readable rest) : Readable (.comma :: rest)
  | negation {rest} (later : Readable rest) : Readable (.negation :: rest)
  | group {inner rest} (within : Readable inner) (later : Readable rest) :
    Readable (.group inner :: rest)

theorem Readable.lead_append {ps : List Piece} (h : Readable ps) {rest : List Char}
    (stops : lead rest = .ending) : lead (charsOfAll ps ++ rest) = firstOfAll ps := by
  cases h with
  | nil => exact stops
  | word word =>
    rw [charsOfAll, chars, List.append_assoc, word.lead_append]
    rfl
  | operator | comma | negation | group => rfl

/-- Readable pieces with the same text start alike. -/
theorem Readable.firstOfAll_eq {ps qs : List Piece} (h : Readable ps) (h' : Readable qs)
    {rest rest' : List Char} (stops : lead rest = .ending) (stops' : lead rest' = .ending)
    (eq : charsOfAll ps ++ rest = charsOfAll qs ++ rest') : firstOfAll ps = firstOfAll qs := by
  rw [← h.lead_append stops, eq, h'.lead_append stops']

/-- Readable pieces around something that is no word. -/
theorem Readable.append {ps : List Piece} (h : Readable ps) (qs : List Piece)
    (apart : firstOfAll qs ≠ .word) (hq : Readable qs) : Readable (ps ++ qs) := by
  induction h with
  | nil => exact hq
  | @word _ rest word next _ ih =>
    refine .word word ?_ ih
    cases rest with
    | nil => exact apart
    | cons p rest => exact next
  | operator solid _ ih => exact .operator solid ih
  | comma _ ih => exact .comma ih
  | negation _ ih => exact .negation ih
  | group within _ _ ih => exact .group within ih

/-- **Readable pieces are known from their text**, whatever stands behind the end of their group. -/
theorem Readable.chars_inj {ps : List Piece} (h : Readable ps) :
    ∀ {qs : List Piece} {rest rest' : List Char}, Readable qs → lead rest = .ending →
      lead rest' = .ending → charsOfAll ps ++ rest = charsOfAll qs ++ rest' →
      ps = qs ∧ rest = rest' := by
  induction h with
  | nil =>
    intro qs rest rest' hq stops stops' eq
    have same := Readable.nil.firstOfAll_eq hq stops stops' eq
    cases hq with
    | nil => exact ⟨rfl, eq⟩
    | _ => cases same
  | @word text ps word apart later ih =>
    intro qs rest rest' hq stops stops' eq
    -- the first characters tell of which kind the next piece is
    have same := (Readable.word word apart later).firstOfAll_eq hq stops stops' eq
    cases hq with
    | word word' apart' later' =>
      rw [charsOfAll_cons_append, charsOfAll_cons_append] at eq
      obtain ⟨spelled, behind⟩ := word.append_inj word' (later.lead_append stops ▸ apart)
        (later'.lead_append stops' ▸ apart') eq
      obtain rfl := String.toList_inj.1 spelled
      obtain ⟨rfl, ends⟩ := ih later' stops stops' behind
      exact ⟨rfl, ends⟩
    | _ => cases same
  | @operator symbol ps solid later ih =>
    intro qs rest rest' hq stops stops' eq
    have same := (Readable.operator solid later).firstOfAll_eq hq stops stops' eq
    cases hq with
    | operator solid' later' =>
      simp only [charsOfAll_cons_append, chars, List.cons_append, List.append_assoc,
        List.nil_append, List.cons.injEq, true_and] at eq
      obtain ⟨spelled, -, behind⟩ := append_cons_inj (P := (· = ' ')) rfl rfl solid solid' eq
      obtain rfl := String.toList_inj.1 spelled
      obtain ⟨rfl, ends⟩ := ih later' stops stops' behind
      exact ⟨rfl, ends⟩
    | _ => cases same
  | comma later ih =>
    intro qs rest rest' hq stops stops' eq
    have same := later.comma.firstOfAll_eq hq stops stops' eq
    cases hq with
    | comma later' =>
      rw [charsOfAll_cons_append, charsOfAll_cons_append] at eq
      obtain ⟨rfl, ends⟩ := ih later' stops stops' (List.append_cancel_left eq)
      exact ⟨rfl, ends⟩
    | _ => cases same
  | negation later ih =>
    intro qs rest rest' hq stops stops' eq
    have same := later.negation.firstOfAll_eq hq stops stops' eq
    cases hq with
    | negation later' =>
      rw [charsOfAll_cons_append, charsOfAll_cons_append] at eq
      obtain ⟨rfl, ends⟩ := ih later' stops stops' (List.append_cancel_left eq)
      exact ⟨rfl, ends⟩
    | _ => cases same
  | group within later ihWithin ih =>
    intro qs rest rest' hq stops stops' eq
    have same := (within.group later).firstOfAll_eq hq stops stops' eq
    cases hq with
    | group within' later' =>
      simp only [charsOfAll_cons_append, chars, List.cons_append, List.append_assoc,
        List.nil_append, List.cons.injEq, true_and] at eq
      -- what is within the group ends at the parenthesis that closes it
      obtain ⟨rfl, behind⟩ := ihWithin within' rfl rfl eq
      obtain ⟨rfl, ends⟩ := ih later' stops stops' (List.tail_eq_of_cons_eq behind)
      exact ⟨rfl, ends⟩
    | _ => cases same

end Piece

end Clausal
