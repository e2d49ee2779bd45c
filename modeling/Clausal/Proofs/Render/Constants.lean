import Clausal.Proofs.Json.Floats
import Clausal.Proofs.Render.Words

/-!
# Constants that are written alike

Main statement: `Value.toTerm_eq_toTerm_iff`. A constant is written as a name, a number or a quoted
atom, and its first character tells which (`Value.Written.kind_eq`). Numbers are told apart by
reading them: one with a point is no integer, and the digits of a floating-point number are its own.
So only a truth value shares its term with another value, which is the text that spells it.
-/

namespace Clausal

namespace Value

def truthName (b : Bool) : String := if b then "true" else "false"

/-- Values that are written alike: the same ones, or a truth value and its name. -/
inductive SharesTerm : Value → Value → Prop
  | same (v : Value) : SharesTerm v v
  | truthFirst (b : Bool) : SharesTerm (.bool b) (.str (truthName b))
  | textFirst (b : Bool) : SharesTerm (.str (truthName b)) (.bool b)

/-! ### Names, numbers and quoted atoms -/

/-- The ways to write a constant. -/
inductive TermKind
  | name
  | number
  | quoted
deriving DecidableEq

/-- The way in which a constant is written that starts with a character. -/
def termKind : List Char → TermKind
  | [] => .number
  | c :: _ => if c = '\x27' then .quoted else if c.isLower then .name else .number

/-- The name that a value has if it needs no quotes. -/
def name? : Value → Option String
  | .bool b => some (truthName b)
  | .str s => some s
  | _ => none

/-- The number that a value is. -/
def number? : Value → Option Json.Number
  | .int i => some (.int i.toInt)
  | .float x => some (.float x)
  | _ => none

/-- Constants with their characters, by the way in which they are written. -/
inductive Written : TermKind → Value → List Char → Prop
  | name {v s} (named : v.name? = some s) (bare : isBareAtom s.toList = true) :
    Written .name v s.toList
  | number {v n cs} (counts : v.number? = some n)
    (start : ∃ c rest, cs = c :: rest ∧ (c = '-' ∨ c.isDigit = true))
    (read : Document.readNumber cs = some (.num n, [])) : Written .number v cs
  | quoted (s) : Written .quoted (.str s) (quoteAtom s.toList)

theorem Written.kind_eq {k : TermKind} {v : Value} {cs : List Char} (h : Written k v cs) :
    termKind cs = k := by
  cases h with
  | @name _ s _ bare =>
    cases chars : s.toList with
    | nil =>
      rw [chars] at bare
      cases bare
    | cons c rest =>
      rw [chars] at bare
      have lower : c.isLower = true := (Bool.and_eq_true_iff.1 bare).1
      have unquoted : c ≠ '\x27' := by
        rintro rfl
        exact absurd lower (by decide)
      rw [termKind, if_neg unquoted, if_pos lower]
  | number counts start read =>
    obtain ⟨c, rest, rfl, first⟩ := start
    -- a number starts with a character below all letters
    have below : c.toNat < 58 := by
      rcases first with rfl | digit
      · decide
      · exact Nat.lt_succ_of_le (of_decide_eq_true (Bool.and_eq_true_iff.1 digit).2)
    have plain : c ≠ '\x27' ∧ ¬ c.isLower = true := by
      revert first
      exact Text.char_below (P := fun c => c = '-' ∨ c.isDigit = true →
        c ≠ '\x27' ∧ ¬ c.isLower = true) (by decide) c below
    rw [termKind, if_neg plain.1, if_neg plain.2]
  | quoted s => rfl

/-- Nothing follows a number. -/
theorem stops_nil : Document.Stops [] := fun _ hc => absurd hc (Option.not_mem_none _)

theorem written_int (i : Int64) : Written .number (.int i) (Json.spellInt i.toInt) := by
  have below : i.toInt < UInt64.size := i.toInt_lt.trans (by decide)
  have reads := Document.readsBack_int i.minValue_le_toInt below
  refine .number rfl reads.start ?_
  have read := reads.read [] stops_nil
  rwa [List.append_nil] at read

theorem written_float {x : Binary64} (finite : x.isFinite = true) :
    Written .number (.float x) (Binary64.Style.term.spell x) := by
  have keeps : Binary64.Style.term.integerFraction = true := rfl
  refine .number rfl (Document.exists_cons_spell keeps finite) ?_
  have read := Document.readNumber_spell keeps finite stops_nil
  rwa [List.append_nil] at read

/-- A constant is written in one of the ways. -/
theorem exists_written {v : Value} {t : String} (h : v.toTerm = .ok t) :
    ∃ k, Written k v t.toList := by
  cases v with
  | bool b =>
    cases h
    exact ⟨.name, .name (v := .bool b) rfl (by cases b <;> decide +kernel)⟩
  | int i =>
    cases h
    rw [String.toList_ofList]
    exact ⟨.number, written_int i⟩
  | float x =>
    rw [toTerm] at h
    split at h
    case isTrue finite =>
      cases h
      rw [Binary64.text, String.toList_ofList]
      exact ⟨.number, written_float finite⟩
    case isFalse => cases h
  | str s =>
    cases h
    split
    case isTrue bare => exact ⟨.name, .name (v := .str s) rfl bare⟩
    case isFalse =>
      rw [String.toList_ofList]
      exact ⟨.quoted, .quoted s⟩

/-! ### Values of one term -/

theorem truthName_injective : ∀ {b b' : Bool}, truthName b = truthName b' → b = b' := by
  decide

theorem sharesTerm_of_name {v v' : Value} {s : String} (h : v.name? = some s)
    (h' : v'.name? = some s) : v.SharesTerm v' := by
  cases v with
  | bool b =>
    cases h
    cases v' with
    | bool b' =>
      rw [truthName_injective (Option.some.inj h')]
      exact .same _
    | str s' =>
      cases h'
      exact .truthFirst b
    | int | float => cases h'
  | str s =>
    cases h
    cases v' with
    | bool b' =>
      cases h'
      exact .textFirst b'
    | str s' =>
      cases h'
      exact .same _
    | int | float => cases h'
  | int | float => cases h

theorem eq_of_number {v v' : Value} {n : Json.Number} (h : v.number? = some n)
    (h' : v'.number? = some n) : v = v' := by
  cases v with
  | int i =>
    cases h
    cases v' with
    | int i' => rw [Int64.toInt_inj.1 (Json.Number.int.inj (Option.some.inj h'))]
    | float => cases h'
    | bool | str => cases h'
  | float x =>
    cases h
    cases v' with
    | float x' =>
      cases h'
      rfl
    | int => cases h'
    | bool | str => cases h'
  | bool | str => cases h

theorem Written.sharesTerm {k : TermKind} {v v' : Value} {cs : List Char} (h : Written k v cs)
    (h' : Written k v' cs) : v.SharesTerm v' := by
  -- how it is written tells the kind of the value, and then which value it is
  generalize same : cs = cs' at h'
  cases h with
  | name named bare =>
    cases h' with
    | name named' bare' =>
      rw [String.toList_inj] at same
      subst same
      exact sharesTerm_of_name named named'
  | number counts start read =>
    cases h' with
    | number counts' start' read' =>
      subst same
      rw [read] at read'
      cases read'
      rw [eq_of_number counts counts']
      exact .same _
  | quoted s =>
    cases h' with
    | quoted s' =>
      obtain ⟨chars, -⟩ := Piece.quoteAtom_append_inj (congrArg (· ++ []) same)
      rw [String.toList_inj.1 chars]
      exact .same _

/-- **Two constants are written alike** exactly when they are the same, or one is a truth value and
the other one its name. -/
theorem toTerm_eq_toTerm_iff {v v' : Value} {t t' : String} (h : v.toTerm = .ok t)
    (h' : v'.toTerm = .ok t') : t = t' ↔ v.SharesTerm v' := by
  constructor
  · rintro rfl
    obtain ⟨k, written⟩ := exists_written h
    obtain ⟨k', written'⟩ := exists_written h'
    obtain rfl : k = k' := written.kind_eq.symm.trans written'.kind_eq
    exact written.sharesTerm written'
  · have name (b : Bool) : (Value.str (truthName b)).toTerm = (Value.bool b).toTerm := by
      cases b <;> decide +kernel
    rintro (_ | b | b)
    · exact Except.ok.inj (h.symm.trans h')
    · exact Except.ok.inj (h.symm.trans ((name b).symm.trans h'))
    · exact Except.ok.inj (h.symm.trans ((name b).trans h'))

end Value

end Clausal
