import Clausal.Proofs.Render.Quoted

/-!
# Words

Names, numbers and quoted atoms. Where a word ends is known from what stands behind it
(`IsWord.append_inj`): a name or a number goes as far as there are characters for it, and a quoted
atom as far as the first quote that is not escaped. Variables and constants are words.
-/

namespace Clausal

theorem Namer.isVariable_of_render {n : Namer} {name v : String} (h : n.render name = .ok v) :
    isVariable v.toList = true := by
  unfold render at h
  dsimp only at h
  split at h
  case isTrue valid =>
    cases h
    rwa [String.toList_ofList]
  case isFalse => cases h

namespace Piece

/-- A character of a word that is not quoted. -/
def isWordChar (c : Char) : Bool := c.isAlphanum || ['_', '.', '-', '+'].contains c

/-- A name or a number, or else an atom between quotes. -/
inductive IsWord : List Char → Prop
  | plain {cs} (ne : cs ≠ []) (all : ∀ c ∈ cs, isWordChar c = true) : IsWord cs
  | quoted (cs) : IsWord (quoteAtom cs)

/-- What can come next in a text. -/
inductive Lead
  | word
  | operator
  | comma
  | negation
  | opening
  /-- The end of a group or of the text. -/
  | ending
deriving DecidableEq

/-- What comes next in a text that starts with a character. -/
def leadOf (c : Char) : Lead :=
  if c = ' ' then .operator else if c = ',' then .comma else if c = '\\' then .negation
  else if c = '(' then .opening else if c = ')' then .ending else .word

def lead : List Char → Lead
  | [] => .ending
  | c :: _ => leadOf c

theorem leadOf_of_isWordChar {c : Char} (h : isWordChar c = true) : leadOf c = .word := by
  unfold leadOf
  repeat' split
  all_goals first | rfl | (subst c; revert h; decide)

theorem takeWhile_eq_nil {rest : List Char} (h : lead rest ≠ .word) :
    rest.takeWhile isWordChar = [] := by
  cases rest with
  | nil => rfl
  | cons c rest =>
    have other : ¬ isWordChar c = true := fun word => h (leadOf_of_isWordChar word)
    rw [List.takeWhile_cons_of_neg other]

/-- A word that is not quoted goes as far as there are characters for it. -/
theorem plain_append_inj {cs cs' rest rest' : List Char} (all : ∀ c ∈ cs, isWordChar c = true)
    (all' : ∀ c ∈ cs', isWordChar c = true) (h : lead rest ≠ .word) (h' : lead rest' ≠ .word)
    (eq : cs ++ rest = cs' ++ rest') : cs = cs' ∧ rest = rest' := by
  have taken := congrArg (List.takeWhile isWordChar) eq
  rw [List.takeWhile_append_of_pos all, List.takeWhile_append_of_pos all', takeWhile_eq_nil h,
    takeWhile_eq_nil h', List.append_nil, List.append_nil] at taken
  subst taken
  exact ⟨rfl, List.append_cancel_left eq⟩

/-- What is quoted goes as far as the first quote that is not escaped. -/
theorem quoteAtom_append_inj {cs cs' rest rest' : List Char}
    (eq : quoteAtom cs ++ rest = quoteAtom cs' ++ rest') : cs = cs' ∧ rest = rest' := by
  have read := congrArg readAtom eq
  rw [readAtom_quoteAtom, readAtom_quoteAtom] at read
  exact Prod.mk.inj (Option.some.inj read)

theorem IsWord.lead_append {cs : List Char} (h : IsWord cs) (rest : List Char) :
    lead (cs ++ rest) = .word := by
  cases h with
  | plain ne all =>
    cases cs with
    | nil => exact absurd rfl ne
    | cons c cs => exact leadOf_of_isWordChar (all c List.mem_cons_self)
  | quoted cs => rfl

theorem quoteAtom_ne_plain {cs cs' rest rest' : List Char} (ne : cs ≠ [])
    (all : ∀ c ∈ cs, isWordChar c = true) : cs ++ rest ≠ quoteAtom cs' ++ rest' := by
  cases cs with
  | nil => exact absurd rfl ne
  | cons c cs =>
    intro eq
    have quote := all c List.mem_cons_self
    rw [List.head_eq_of_cons_eq eq] at quote
    revert quote
    decide

/-- A word ends where something else than a word starts. -/
theorem IsWord.append_inj {cs cs' rest rest' : List Char} (hw : IsWord cs) (hw' : IsWord cs')
    (h : lead rest ≠ .word) (h' : lead rest' ≠ .word) (eq : cs ++ rest = cs' ++ rest') :
    cs = cs' ∧ rest = rest' := by
  cases hw with
  | plain ne all =>
    cases hw' with
    | plain ne' all' => exact plain_append_inj all all' h h' eq
    | quoted cs' => exact absurd eq (quoteAtom_ne_plain ne all)
  | quoted cs =>
    cases hw' with
    | plain ne' all' => exact absurd eq.symm (quoteAtom_ne_plain ne' all')
    | quoted cs' =>
      obtain ⟨rfl, same⟩ := quoteAtom_append_inj eq
      exact ⟨rfl, same⟩

/-! ### Words of constants -/

theorem isWordChar_of_mem_toDigits {n : Nat} : ∀ c ∈ Nat.toDigits 10 n, isWordChar c = true := by
  intro c hc
  have digit : c.isDigit = true := Nat.isDigit_of_mem_toDigits (by decide) (by decide) hc
  simp [isWordChar, Char.isAlphanum, digit]

theorem isWordChar_of_mem_zeros {n : Nat} : ∀ c ∈ List.replicate n '0', isWordChar c = true :=
  fun _ hc => (List.mem_replicate.1 hc).2 ▸ rfl

theorem isWordChar_of_mem_positional {style : Binary64.Style} {digits : List Char} {exponent : Int}
    (h : ∀ c ∈ digits, isWordChar c = true) :
    ∀ c ∈ style.positional digits exponent, isWordChar c = true := by
  unfold Binary64.Style.positional
  split
  · refine List.forall_mem_cons.2 ⟨rfl, List.forall_mem_cons.2 ⟨rfl, ?_⟩⟩
    exact List.forall_mem_append.2 ⟨isWordChar_of_mem_zeros, h⟩
  · dsimp only
    split
    · refine List.forall_mem_append.2 ⟨?_, by split <;> exact List.all_eq_true.1 (by decide)⟩
      exact List.forall_mem_append.2 ⟨h, isWordChar_of_mem_zeros⟩
    · refine List.forall_mem_append.2 ⟨fun c hc => h c (List.mem_of_mem_take hc), ?_⟩
      exact List.forall_mem_cons.2 ⟨rfl, fun c hc => h c (List.mem_of_mem_drop hc)⟩

theorem isWordChar_of_mem_scientific {style : Binary64.Style} {digits : List Char} {exponent : Int}
    (h : ∀ c ∈ digits, isWordChar c = true) :
    ∀ c ∈ style.scientific digits exponent, isWordChar c = true := by
  unfold Binary64.Style.scientific Binary64.Style.exponentText
  refine List.forall_mem_append.2 ⟨?_, ?_⟩
  · refine List.forall_mem_append.2 ⟨fun c hc => h c (List.mem_of_mem_take hc), ?_⟩
    split
    · exact List.forall_mem_cons.2 ⟨rfl, fun c hc => h c (List.mem_of_mem_drop hc)⟩
    · split <;> exact List.all_eq_true.1 (by decide)
  · refine List.forall_mem_append.2 ⟨List.forall_mem_cons.2 ⟨rfl, ?_⟩, isWordChar_of_mem_toDigits⟩
    split
    · exact List.all_eq_true.1 (by decide)
    · split <;> exact List.all_eq_true.1 (by decide)

theorem isWordChar_of_mem_unsigned (style : Binary64.Style) (x : Binary64) :
    ∀ c ∈ style.unsigned x, isWordChar c = true := by
  unfold Binary64.Style.unsigned
  split
  · exact List.all_eq_true.1 (by decide)
  · split
    · exact List.all_eq_true.1 (by decide)
    · split
      · exact isWordChar_of_mem_positional (List.all_eq_true.1 (by decide))
      · dsimp only
        split
        · exact isWordChar_of_mem_positional isWordChar_of_mem_toDigits
        · exact isWordChar_of_mem_scientific isWordChar_of_mem_toDigits

theorem positional_ne_nil {style : Binary64.Style} {digits : List Char} {exponent : Int}
    (h : digits ≠ []) : style.positional digits exponent ≠ [] := by
  unfold Binary64.Style.positional
  split
  · exact nofun
  · dsimp only
    split
    · rw [List.append_assoc]
      exact List.append_ne_nil_of_left_ne_nil h _
    · exact List.append_ne_nil_of_right_ne_nil _ nofun

theorem unsigned_ne_nil (style : Binary64.Style) (x : Binary64) : style.unsigned x ≠ [] := by
  unfold Binary64.Style.unsigned
  split
  · exact nofun
  · split
    · exact nofun
    · split
      · exact positional_ne_nil nofun
      · dsimp only
        split
        · exact positional_ne_nil Nat.toDigits_ne_nil
        · exact List.append_ne_nil_of_right_ne_nil _ nofun

theorem isWordChar_of_mem_spell (style : Binary64.Style) (x : Binary64) :
    ∀ c ∈ style.spell x, isWordChar c = true := by
  have unsigned := isWordChar_of_mem_unsigned style x
  unfold Binary64.Style.spell
  split
  · exact List.forall_mem_cons.2 ⟨rfl, unsigned⟩
  · exact unsigned

/-- A number is a word in every style. -/
theorem isWord_spell (style : Binary64.Style) (x : Binary64) : IsWord (style.spell x) := by
  refine .plain ?_ (isWordChar_of_mem_spell style x)
  unfold Binary64.Style.spell
  split
  · exact nofun
  · exact unsigned_ne_nil style x

theorem isWordChar_of_mem_spellInt (i : Int) : ∀ c ∈ Json.spellInt i, isWordChar c = true := by
  unfold Json.spellInt
  split
  · exact List.forall_mem_cons.2 ⟨rfl, isWordChar_of_mem_toDigits⟩
  · exact isWordChar_of_mem_toDigits

theorem isWord_spellInt (i : Int) : IsWord (Json.spellInt i) := by
  refine .plain ?_ (isWordChar_of_mem_spellInt i)
  unfold Json.spellInt
  split
  · exact nofun
  · exact Nat.toDigits_ne_nil

theorem isWordChar_of_isAlphanum {c : Char} (h : c.isAlphanum = true) : isWordChar c = true :=
  Bool.or_eq_true_iff.2 (.inl h)

theorem isWordChar_of_isVariableChar {c : Char} (h : isVariableChar c = true) :
    isWordChar c = true := by
  rcases Bool.or_eq_true_iff.1 h with letter | underscore
  · exact isWordChar_of_isAlphanum letter
  · rw [decide_eq_true_eq] at underscore
    subst underscore
    rfl

/-- A name in small letters is a word. -/
theorem isWord_of_isBareAtom {cs : List Char} (h : isBareAtom cs = true) : IsWord cs := by
  refine .plain ?_ fun c hc => isWordChar_of_isVariableChar (isVariableChar_of_isBareAtom h c hc)
  rintro rfl
  cases h

theorem isVariableChar_of_isVariable {cs : List Char} (h : isVariable cs = true) :
    ∀ c ∈ cs, isVariableChar c = true := by
  cases cs with
  | nil => cases h
  | cons c cs =>
    obtain ⟨first, rest⟩ := Bool.and_eq_true_iff.1 h
    refine List.forall_mem_cons.2 ⟨?_, List.all_eq_true.1 rest⟩
    rcases Bool.or_eq_true_iff.1 first with upper | underscore
    · have letter : c.isAlpha = true := Bool.or_eq_true_iff.2 (.inl upper)
      exact Bool.or_eq_true_iff.2 (.inl (Bool.or_eq_true_iff.2 (.inl letter)))
    · exact Bool.or_eq_true_iff.2 (.inr underscore)

theorem isWordChar_of_isVariable {cs : List Char} (h : isVariable cs = true) :
    ∀ c ∈ cs, isWordChar c = true :=
  fun c hc => isWordChar_of_isVariableChar (isVariableChar_of_isVariable h c hc)

/-- A variable is a word. -/
theorem isWord_of_isVariable {cs : List Char} (h : isVariable cs = true) : IsWord cs := by
  refine .plain ?_ (isWordChar_of_isVariable h)
  rintro rfl
  cases h

/-- A constant is a word. -/
theorem isWord_of_toTerm {v : Value} {t : String} (h : v.toTerm = .ok t) : IsWord t.toList := by
  unfold Value.toTerm at h
  split at h
  case h_1 b =>
    cases h
    cases b
    · exact .plain (by decide) (List.all_eq_true.1 (by decide +kernel))
    · exact .plain (by decide) (List.all_eq_true.1 (by decide +kernel))
  case h_2 i =>
    cases h
    rw [String.toList_ofList]
    exact isWord_spellInt _
  case h_3 x =>
    split at h
    case isTrue =>
      cases h
      rw [Binary64.text, String.toList_ofList]
      exact isWord_spell _ _
    case isFalse => cases h
  case h_4 s =>
    cases h
    split
    case isTrue bare => exact isWord_of_isBareAtom bare
    case isFalse =>
      rw [String.toList_ofList]
      exact .quoted _

end Piece

end Clausal
