import Clausal.Render.Atom
import Clausal.Render.Naming
import Mathlib.Data.List.Basic

/-!
# Strings that are read back

Main statement: `Value.readAtom_toTerm_str`. A string that is a name in small letters is written as
it is. Any other string is put between quotes after two passes over it (`quoteAtom_eq_escape`). A
reader that takes the character after a backslash as it is and stops at the first other quote gets
the string back from this, and finds where it ends whatever comes behind it (`readQuoted_append`).
-/

namespace Clausal

/-! ### Two passes -/

/-- Characters with a backslash in front of each one that is special. -/
def escape (special : Char) (cs : List Char) : List Char :=
  cs.flatMap fun c => if c = special then ['\\', c] else [c]

/-- Backslashes are escaped first. The second pass, which is for quotes, then leaves alone what the
first one has put in; the other way round, the backslashes in front of quotes would be doubled. -/
theorem quoteAtom_eq_escape (cs : List Char) :
    quoteAtom cs = '\x27' :: escape '\x27' (escape '\\' cs) ++ ['\x27'] := by
  have passes (c : Char) :
      escape '\x27' (if c = '\\' then ['\\', c] else [c]) = quoteAtomChar c := by
    by_cases backslash : c = '\\'
    · subst backslash
      rfl
    · by_cases quote : c = '\x27'
      · subst quote
        rfl
      · simp [escape, quoteAtomChar, backslash, quote]
  have both : escape '\x27' (escape '\\' cs) = cs.flatMap quoteAtomChar := by
    rw [escape, escape, List.flatMap_assoc]
    exact congrArg (List.flatMap · cs) (funext passes)
  rw [both, quoteAtom]

/-! ### Reading -/

/-- The characters up to the quote that ends an atom, and those behind it. A backslash makes the
next character literal. -/
def readQuoted : List Char → Option (List Char × List Char)
  | [] => none
  | '\x27' :: rest => some ([], rest)
  | '\\' :: c :: rest => (readQuoted rest).map fun (cs, behind) => (c :: cs, behind)
  | c :: rest => (readQuoted rest).map fun (cs, behind) => (c :: cs, behind)

/-- The characters that an atom at the start of a text stands for, and those behind the atom.
Without quotes it goes as far as there are letters, digits and underscores. -/
def readAtom : List Char → Option (List Char × List Char)
  | '\x27' :: rest => readQuoted rest
  | cs => some (cs.takeWhile isVariableChar, cs.dropWhile isVariableChar)

theorem readQuoted_quoteAtomChar (c : Char) (rest : List Char) :
    readQuoted (quoteAtomChar c ++ rest) =
      (readQuoted rest).map fun (cs, behind) => (c :: cs, behind) := by
  unfold quoteAtomChar
  split
  case isTrue => rfl
  case isFalse plain =>
    rw [not_or] at plain
    rw [List.singleton_append, readQuoted] <;> simp [plain]

/-- What is quoted is read back, whatever comes behind the quote at its end. -/
theorem readQuoted_append (cs behind : List Char) :
    readQuoted (cs.flatMap quoteAtomChar ++ '\x27' :: behind) = some (cs, behind) := by
  induction cs with
  | nil => rfl
  | cons c rest ih =>
    rw [List.flatMap_cons, List.append_assoc, readQuoted_quoteAtomChar, ih]
    rfl

theorem readAtom_quoteAtom (cs behind : List Char) :
    readAtom (quoteAtom cs ++ behind) = some (cs, behind) := by
  rw [quoteAtom, List.cons_append, List.cons_append, List.append_assoc, readAtom]
  exact readQuoted_append cs behind

theorem isVariableChar_of_isBareAtom {cs : List Char} (h : isBareAtom cs = true) :
    ∀ c ∈ cs, isVariableChar c = true := by
  cases cs with
  | nil => cases h
  | cons c cs =>
    obtain ⟨lower, rest⟩ := Bool.and_eq_true_iff.1 h
    refine List.forall_mem_cons.2 ⟨?_, List.all_eq_true.1 rest⟩
    have letter : c.isAlpha = true := Bool.or_eq_true_iff.2 (.inr lower)
    exact Bool.or_eq_true_iff.2 (.inl (Bool.or_eq_true_iff.2 (.inl letter)))

/-- A name in small letters ends where no letter, digit or underscore follows. -/
theorem readAtom_bare {cs behind : List Char} (bare : isBareAtom cs = true)
    (ends : ∀ d ∈ behind.head?, isVariableChar d = false) :
    readAtom (cs ++ behind) = some (cs, behind) := by
  have letters := isVariableChar_of_isBareAtom bare
  have unquoted : ∀ rest, cs ++ behind ≠ '\x27' :: rest := by
    intro rest eq
    cases cs with
    | nil => cases bare
    | cons c cs =>
      have quote := letters c List.mem_cons_self
      rw [List.head_eq_of_cons_eq eq] at quote
      exact absurd quote (by decide)
  have taken : behind.takeWhile isVariableChar = [] ∧ behind.dropWhile isVariableChar = behind := by
    cases behind with
    | nil => exact ⟨rfl, rfl⟩
    | cons d rest =>
      have other : ¬ isVariableChar d = true := by rw [ends d rfl]; exact Bool.false_ne_true
      exact ⟨List.takeWhile_cons_of_neg other, List.dropWhile_cons_of_neg other⟩
  rw [readAtom.eq_2 _ unquoted, List.takeWhile_append_of_pos letters,
    List.dropWhile_append_of_pos letters, taken.1, taken.2, List.append_nil]

namespace Value

/-- **Strings do not get out of their quotes.** A string is written as it is if it is a small letter
with letters, digits and underscores behind it, and can then be told from anything that does not go
on like this. Any other string is escaped in two passes and put between quotes: reading stops at the
quote that has been put at the end and gives the string back, whatever comes behind. -/
theorem readAtom_toTerm_str (s : String) : ∃ text, (str s).toTerm = .ok text ∧
    ((text = s ∧
        (∃ c rest, s.toList = c :: rest ∧ c.isLower = true ∧
          ∀ d ∈ rest, d.isAlphanum = true ∨ d = '_') ∧
        ∀ behind, (∀ d ∈ behind.head?, isVariableChar d = false) →
          readAtom (text.toList ++ behind) = some (s.toList, behind)) ∨
      (text.toList = '\x27' :: escape '\x27' (escape '\\' s.toList) ++ ['\x27'] ∧
        ∀ behind, readAtom (text.toList ++ behind) = some (s.toList, behind))) := by
  refine ⟨_, rfl, ?_⟩
  -- bare where the reader would stop by itself, and in quotes otherwise
  cases bare : isBareAtom s.toList with
  | true =>
    refine .inl ⟨rfl, ?_, fun behind ends => readAtom_bare bare ends⟩
    cases chars : s.toList with
    | nil =>
      rw [chars] at bare
      cases bare
    | cons c rest =>
      rw [chars] at bare
      obtain ⟨lower, others⟩ := Bool.and_eq_true_iff.1 bare
      refine ⟨c, rest, rfl, lower, fun d hd => ?_⟩
      exact (Bool.or_eq_true_iff.1 (List.all_eq_true.1 others d hd)).imp_right of_decide_eq_true
  | false =>
    rw [if_neg Bool.false_ne_true, String.toList_ofList]
    exact .inr ⟨quoteAtom_eq_escape _, readAtom_quoteAtom _⟩

/-- A string that ends with a backslash, where the text behind it has a quote. -/
theorem readAtom_toTerm_str_backslash :
    (str "it's \\").toTerm = .ok "'it\\'s \\\\'" ∧
      readAtom ("'it\\'s \\\\'".toList ++ ", 'x'.".toList) =
        some ("it's \\".toList, ", 'x'.".toList) := by
  have written : (str "it's \\").toTerm = .ok "'it\\'s \\\\'" := by decide +kernel
  obtain ⟨text, eq, bare | quoted⟩ := readAtom_toTerm_str "it's \\"
  · obtain ⟨rfl, -⟩ := bare
    exact absurd (Except.ok.inj (written.symm.trans eq)) (by decide +kernel)
  · cases written.symm.trans eq
    exact ⟨written, quoted.2 _⟩

end Value

end Clausal
