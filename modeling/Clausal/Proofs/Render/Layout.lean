import Clausal.Proofs.Render.Phrase
import Clausal.Proofs.Render.Pieces

/-!
# The pieces of a phrase

Main statement: `Phrase.layout_eq_of_text_eq`. The text of a phrase is that of its pieces
(`Phrase.toList_text`), and when the words in the phrase are spelled as such (`Phrase.Sound`), the
pieces can be read back from the text.
-/

namespace Clausal

/-- The symbols of the operators that are written between their arguments. -/
def symbols : List String := infixSymbols.map (·.2)

theorem mem_symbols {op symbol : String} {arity : Nat} (h : infixSymbol? op arity = some symbol) :
    symbol ∈ symbols := by
  unfold infixSymbol? at h
  split at h
  · obtain ⟨before, after, eq, -⟩ := List.lookup_eq_some_iff.1 h
    rw [symbols, eq]
    exact List.mem_map.2 ⟨_, List.mem_append_right _ List.mem_cons_self, rfl⟩
  · cases h

namespace Phrase

/-- Pieces in parentheses, if they need them. -/
def part (needed : Bool) (pieces : List Piece) : List Piece :=
  if needed then [.group pieces] else pieces

/-- The pieces of a choice. -/
def choiceLayout (style : ChoiceStyle) (condition yes no : List Piece) : List Piece :=
  match style with
  | .disjunction => [.group [.group (condition ++ .comma :: yes), .operator ";",
      .group (.negation :: .group condition :: .comma :: no)]]
  | .arrow => [.group (condition ++ .operator "->" :: (yes ++ .operator ";" :: no))]

mutual

def layout (style : ChoiceStyle) : Phrase → List Piece
  | .var t | .word t | .apply t [] => [.word t]
  | .unify lhs rhs => layout style lhs ++ .operator "=" :: layout style rhs
  | .between symbol lhs rhs =>
    part lhs.isBetween (layout style lhs) ++ .operator symbol ::
      part rhs.isBetween (layout style rhs)
  | .apply name (a :: rest) => [.word name, .group (layouts style (a :: rest))]
  | .choice condition yes no =>
    choiceLayout style (layout style condition) (layout style yes) (layout style no)
  | .not e => [.negation, .group (layout style e)]
  | .negated atom => .negation :: layout style atom

/-- The pieces of some phrases, with a comma between neighbours. -/
def layouts (style : ChoiceStyle) : List Phrase → List Piece
  | [] => []
  | [p] => layout style p
  | p :: q :: rest => layout style p ++ .comma :: layouts style (q :: rest)

end

variable {style : ChoiceStyle}

/-! ### The text of a phrase is that of its pieces -/

theorem toList_grouped (needed : Bool) {t : String} {pieces : List Piece}
    (h : t.toList = Piece.charsOfAll pieces) :
    (grouped needed t).toList = Piece.charsOfAll (part needed pieces) := by
  cases needed with
  | true => simp [grouped, part, Piece.charsOfAll, Piece.chars, h]
  | false => exact h

theorem toList_choice {c y n : String} {cs ys ns : List Piece}
    (hc : c.toList = Piece.charsOfAll cs) (hy : y.toList = Piece.charsOfAll ys)
    (hn : n.toList = Piece.charsOfAll ns) :
    (Writer.choice style c y n).toList = Piece.charsOfAll (choiceLayout style cs ys ns) := by
  cases style <;>
    simp [Writer.choice, choiceLayout, Piece.charsOfAll, Piece.chars, Piece.charsOfAll_append, hc,
      hy, hn]

mutual

theorem toList_text : ∀ p : Phrase, (text style p).toList = Piece.charsOfAll (layout style p)
  | .var t | .word t | .apply t [] => by
    simp [text, layout, Piece.charsOfAll, Piece.chars, texts, compound]
  | .unify lhs rhs => by
    simp [text, layout, Piece.charsOfAll, Piece.charsOfAll_append, Piece.chars, toList_text lhs,
      toList_text rhs]
  | .between symbol lhs rhs => by
    simp [text, layout, Piece.charsOfAll, Piece.charsOfAll_append, Piece.chars,
      toList_grouped _ (toList_text lhs), toList_grouped _ (toList_text rhs)]
  | .apply name (a :: rest) => by
    have inner := toList_texts (a :: rest)
    rw [text, layout, compound, if_neg (by rw [texts]; exact Bool.false_ne_true)]
    simp [Piece.charsOfAll, Piece.chars, inner]
  | .choice condition yes no => by
    rw [text, layout]
    exact toList_choice (toList_text condition) (toList_text yes) (toList_text no)
  | .not e => by
    simp [text, layout, Piece.charsOfAll, Piece.chars, toList_text e]
  | .negated atom => by
    simp [text, layout, Piece.charsOfAll, Piece.chars, toList_text atom]

theorem toList_texts : ∀ ps : List Phrase,
    (commaList (texts style ps)).toList = Piece.charsOfAll (layouts style ps)
  | [] => by simp [commaList, texts, layouts, Piece.charsOfAll]
  | [p] => by simp [commaList, texts, layouts, toList_text p]
  | p :: q :: rest => by
    have later := toList_texts (q :: rest)
    rw [commaList, texts] at later
    rw [commaList, texts, texts, String.intercalate_cons_cons, layouts, Piece.charsOfAll_append]
    simp [Piece.charsOfAll, Piece.chars, toList_text p, later]

end

/-! ### Pieces of sound phrases -/

mutual

/-- Words, names and symbols are spelled as such. -/
def Sound : Phrase → Prop
  | .var t | .word t => Piece.IsWord t.toList
  | .unify lhs rhs => Sound lhs ∧ Sound rhs
  | .between symbol lhs rhs => symbol ∈ symbols ∧ Sound lhs ∧ Sound rhs
  | .apply name args => Piece.IsWord name.toList ∧ AllSound args
  | .choice condition yes no => Sound condition ∧ Sound yes ∧ Sound no
  | .not e => Sound e
  | .negated _ => False

def AllSound : List Phrase → Prop
  | [] => True
  | p :: rest => Sound p ∧ AllSound rest

end

theorem solid_of_mem_symbols (symbol : String) (h : symbol ∈ symbols ∨ symbol ∈ ["=", "->", ";"]) :
    ∀ c ∈ symbol.toList, ¬ c = ' ' := by
  have all : (symbols ++ ["=", "->", ";"]).all (fun s => s.toList.all (· != ' ')) = true := by
    decide +kernel
  have solid := List.all_eq_true.1 all symbol (List.mem_append.2 h)
  exact fun c hc => bne_iff_ne.1 (List.all_eq_true.1 solid c hc)

theorem readable_part (needed : Bool) {pieces : List Piece} (h : Piece.Readable pieces) :
    Piece.Readable (part needed pieces) := by
  cases needed with
  | true => exact .group h .nil
  | false => exact h

theorem readable_choiceLayout {cs ys ns : List Piece} (hc : Piece.Readable cs)
    (hy : Piece.Readable ys) (hn : Piece.Readable ns) :
    Piece.Readable (choiceLayout style cs ys ns) := by
  have semicolon := solid_of_mem_symbols ";" (.inr (by decide))
  have arrow := solid_of_mem_symbols "->" (.inr (by decide))
  cases style with
  | disjunction =>
    have first := hc.append (.comma :: ys) nofun (.comma hy)
    have second : Piece.Readable (.negation :: .group cs :: .comma :: ns) :=
      .negation (.group hc (.comma hn))
    exact .group (.group first (.operator semicolon (.group second .nil))) .nil
  | arrow =>
    have later := hy.append (.operator ";" :: ns) nofun (.operator semicolon hn)
    exact .group (hc.append _ nofun (.operator arrow later)) .nil

mutual

theorem readable_layout : ∀ {p : Phrase}, p.Sound → Piece.Readable (layout style p)
  | .var t, h | .word t, h => .word h nofun .nil
  | .apply name [], h => .word h.1 nofun .nil
  | .unify lhs rhs, ⟨hl, hr⟩ => by
    have equals := solid_of_mem_symbols "=" (.inr (by decide))
    exact (readable_layout hl).append _ nofun (.operator equals (readable_layout hr))
  | .between symbol lhs rhs, ⟨known, hl, hr⟩ => by
    have right := readable_part rhs.isBetween (readable_layout hr)
    exact (readable_part lhs.isBetween (readable_layout hl)).append _ nofun
      (.operator (solid_of_mem_symbols symbol (.inl known)) right)
  | .apply name (a :: rest), ⟨hw, ha⟩ => .word hw nofun (.group (readable_layouts ha) .nil)
  | .choice condition yes no, ⟨hc, hy, hn⟩ =>
    readable_choiceLayout (readable_layout hc) (readable_layout hy) (readable_layout hn)
  | .not e, h => .negation (.group (readable_layout (p := e) h) .nil)

theorem readable_layouts : ∀ {ps : List Phrase}, AllSound ps → Piece.Readable (layouts style ps)
  | [], _ => .nil
  | [_], ⟨h, _⟩ => readable_layout h
  | _ :: q :: rest, ⟨h, later⟩ =>
    (readable_layout h).append _ nofun
      (.comma (readable_layouts (show AllSound (q :: rest) from later)))

end

/-- Sound phrases with the same text have the same pieces. -/
theorem layout_eq_of_text_eq {p q : Phrase} (hp : p.Sound) (hq : q.Sound)
    (eq : p.text style = q.text style) : p.layout style = q.layout style := by
  have chars : Piece.charsOfAll (layout style p) ++ [] =
      Piece.charsOfAll (layout style q) ++ [] := by
    rw [← toList_text p, ← toList_text q, eq]
  exact ((readable_layout hp).chars_inj (readable_layout hq) rfl rfl chars).1

end Phrase

end Clausal
