import Clausal.Json.Reader
import Clausal.Json.Spelling
import Clausal.Proofs.Text.Blank

/-!
# Leaves are read as they are spelled

Strings and integers, whatever follows them. An escape of a control stands for one character only,
so the parts of a string that is spelled are as many as its characters (`readParts_spellChar`). A
number ends where no digit, point or exponent follows (`Stops`).
-/

namespace Clausal.Document

open Json Text

/-! ### Strings -/

/-- The part that a spelled character becomes: a control without a short name is written in hex. -/
def spelledPart (c : Char) : StringPart :=
  if c.toNat < 32 ∧ c.toNat ≠ 8 ∧ c ≠ '\t' ∧ c ≠ '\n' ∧ c.toNat ≠ 12 ∧ c ≠ '\r' then
    .codeUnit c.toNat
  else .char c

/-- A control without a short name. -/
theorem readParts_control {c : Char} (control : c.toNat < 32) (rest : List Char) :
    readParts ('\\' :: 'u' :: controlCode c.toNat ++ rest) =
      (readParts rest).map fun p => (.codeUnit c.toNat :: p.1, p.2) := by
  have code : ∀ n < 32, ∃ a b x y, controlCode n = [a, b, x, y] ∧ hexValue? a = some 0 ∧
      hexValue? b = some 0 ∧ hexValue? x = some (n / 16) ∧ hexValue? y = some (n % 16) := by
    intro n hn
    refine ⟨'0', '0', (controlCode n).getD 2 '0', (controlCode n).getD 3 '0', ?_⟩
    -- below 32 only the last two digits of the code differ
    revert n
    decide
  obtain ⟨a, b, x, y, eq, ha, hb, hx, hy⟩ := code c.toNat control
  simp only [eq, List.cons_append, List.nil_append, readParts, ha, hb, hx, hy, bind, Option.bind]
  have : (16 * (16 * 0 + 0) + c.toNat / 16) * 16 + c.toNat % 16 = c.toNat := by omega
  rw [this]
  cases readParts rest <;> rfl

/-- A character that is not escaped. -/
theorem readParts_plain {c : Char} (quote : c ≠ '"') (backslash : c ≠ '\\') (printed : ¬ c.toNat < 32)
    (rest : List Char) :
    readParts (c :: rest) = (readParts rest).map fun p => (.char c :: p.1, p.2) := by
  rw [readParts, if_neg printed]
  · cases readParts rest <;> rfl
  · exact fun eq => quote eq
  · exact fun _ _ _ _ _ eq => absurd eq backslash
  · exact fun _ _ eq => absurd eq backslash

/-- A character with an escape of one letter. -/
theorem readParts_escape {e c : Char} (letter : e ≠ 'u') (h : escaped? e = some c)
    (rest : List Char) :
    readParts ('\\' :: e :: rest) = (readParts rest).map fun p => (.char c :: p.1, p.2) := by
  rw [readParts, h]
  · cases readParts rest <;> rfl
  · exact fun _ _ _ _ _ eq => absurd eq letter

theorem readParts_spellChar (c : Char) (rest : List Char) :
    readParts (spellChar c ++ rest) =
      (readParts rest).map fun p => (spelledPart c :: p.1, p.2) := by
  have ofNat {n : Nat} (h : c.toNat = n) : c = Char.ofNat n := by rw [← h, Char.ofNat_toNat]
  -- one case for each kind of escape, in the order in which the printer tries them
  by_cases quote : c = '"'
  · subst quote; exact readParts_escape (by decide) rfl rest
  by_cases backslash : c = '\\'
  · subst backslash; exact readParts_escape (by decide) rfl rest
  by_cases backspace : c.toNat = 8
  · obtain rfl := ofNat backspace; exact readParts_escape (by decide) rfl rest
  by_cases tab : c = '\t'
  · subst tab; exact readParts_escape (by decide) rfl rest
  by_cases newline : c = '\n'
  · subst newline; exact readParts_escape (by decide) rfl rest
  by_cases formFeed : c.toNat = 12
  · obtain rfl := ofNat formFeed; exact readParts_escape (by decide) rfl rest
  by_cases carriage : c = '\r'
  · subst carriage; exact readParts_escape (by decide) rfl rest
  simp only [spellChar, spelledPart, quote, backslash, backspace, tab, newline, formFeed, carriage,
    if_false, not_false_eq_true, and_true, ne_eq]
  split
  case isTrue control => exact readParts_control control rest
  case isFalse printed => exact readParts_plain quote backslash printed rest

theorem readParts_spelled (cs rest : List Char) :
    readParts (cs.flatMap spellChar ++ '"' :: rest) = some (cs.map spelledPart, rest) := by
  induction cs with
  | nil => rfl
  | cons c cs ih =>
    rw [List.flatMap_cons, List.append_assoc, readParts_spellChar, ih]
    rfl

theorem joinParts_spelled (cs : List Char) : joinParts (cs.map spelledPart) = some cs := by
  induction cs with
  | nil => rfl
  | cons c cs ih =>
    rw [List.map_cons, spelledPart]
    split
    case isTrue control =>
      have high : isHighSurrogate c.toNat = false := by simp [isHighSurrogate]; omega
      have low : isLowSurrogate c.toNat = false := by simp [isLowSurrogate]; omega
      rw [joinParts.eq_def]
      simp only [high, low, ih, Char.ofNat_toNat, Bool.false_eq_true, if_false, Option.map_some]
    case isFalse => rw [joinParts, ih, Option.map_some]

/-- A string is read as it is spelled. -/
theorem readString_spelled (s : String) (rest : List Char) :
    readString (s.toList.flatMap spellChar ++ '"' :: rest) = some (some s, rest) := by
  simp only [readString, readParts_spelled, joinParts_spelled, bind, Option.bind, Option.map_some,
    String.ofList_toList]

/-- A string and what follows it can be told apart. -/
theorem spellString_append_injective {s t : String} {rest rest' : List Char}
    (h : spellString s ++ rest = spellString t ++ rest') : s = t ∧ rest = rest' := by
  have spelled (u : String) (rest : List Char) :
      spellString u ++ rest = '"' :: (u.toList.flatMap spellChar ++ '"' :: rest) := by
    simp only [spellString, List.cons_append, List.append_assoc, List.nil_append]
  rw [spelled, spelled] at h
  have same := congrArg readString (List.cons.inj h).2
  rw [readString_spelled, readString_spelled] at same
  cases same
  exact ⟨rfl, rfl⟩

/-! ### Digits -/

theorem digitsValue_eq (cs : List Char) : digitsValue cs = Nat.ofDigitChars 10 cs 0 :=
  Nat.ofDigitChars_eq_foldl.symm

theorem digitsValue_toDigits (n : Nat) : digitsValue (Nat.toDigits 10 n) = n := by
  rw [digitsValue_eq, Nat.ofDigitChars_ten_toDigits]

theorem isDigit_of_mem_toDigits {n : Nat} {c : Char} (h : c ∈ Nat.toDigits 10 n) :
    c.isDigit = true := Nat.isDigit_of_mem_toDigits (by decide) (by decide) h

/-- Only zero starts with a zero. -/
theorem head?_toDigits (n : Nat) (positive : 0 < n) : (Nat.toDigits 10 n).head? ≠ some '0' := by
  induction n using Nat.strongRecOn with
  | ind n ih =>
    by_cases small : n < 10
    · have leading : ∀ m < 10, 0 < m → [m.digitChar].head? ≠ some '0' := by decide
      rw [Nat.toDigits_of_lt_base small]
      exact leading n small positive
    · rw [Nat.toDigits_of_base_le (by decide) (by omega), List.head?_append_of_ne_nil _
        Nat.toDigits_ne_nil]
      exact ih (n / 10) (by omega) (by omega)

/-- Digits, at least one. -/
structure IsDigits (ds : List Char) : Prop where
  nonempty : ds ≠ []
  digits : ∀ c ∈ ds, c.isDigit = true

theorem isDigits_toDigits (n : Nat) : IsDigits (Nat.toDigits 10 n) :=
  ⟨Nat.toDigits_ne_nil, fun _ => isDigit_of_mem_toDigits⟩

theorem IsDigits.exists_cons {ds : List Char} (h : IsDigits ds) :
    ∃ c rest, ds = c :: rest ∧ c.isDigit = true := by
  obtain ⟨c, rest, rfl⟩ := List.exists_cons_of_ne_nil h.nonempty
  exact ⟨c, rest, rfl, h.digits c List.mem_cons_self⟩

/-- The text does not start with a digit. -/
def StopsDigits (rest : List Char) : Prop := ∀ c ∈ rest.head?, c.isDigit = false

theorem readDigits_append {ds rest : List Char} (h : IsDigits ds) (stops : StopsDigits rest) :
    readDigits (ds ++ rest) = some (ds, rest) := by
  have none : rest.takeWhile Char.isDigit = [] ∧ rest.dropWhile Char.isDigit = rest := by
    cases rest with
    | nil => exact ⟨rfl, rfl⟩
    | cons c rest =>
      have end_ : ¬ c.isDigit = true := by simp [stops c rfl]
      exact ⟨List.takeWhile_cons_of_neg end_, List.dropWhile_cons_of_neg end_⟩
  unfold readDigits
  rw [List.takeWhile_append_of_pos h.digits, List.dropWhile_append_of_pos h.digits, none.1, none.2,
    List.append_nil]
  split
  case h_1 => exact absurd rfl h.nonempty
  case h_2 => rfl

/-- A number and what follows it can be told apart. -/
theorem toDigits_append_injective {m n : Nat} {rest rest' : List Char} (stops : StopsDigits rest)
    (stops' : StopsDigits rest') (h : Nat.toDigits 10 m ++ rest = Nat.toDigits 10 n ++ rest') :
    m = n ∧ rest = rest' := by
  have same := congrArg readDigits h
  rw [readDigits_append (isDigits_toDigits m) stops, readDigits_append (isDigits_toDigits n) stops',
    Option.some.injEq, Prod.mk.injEq] at same
  have values := congrArg digitsValue same.1
  rw [digitsValue_toDigits, digitsValue_toDigits] at values
  exact ⟨values, same.2⟩

/-- Digits before a point: one of them, or the first one not a zero. -/
structure IsWhole (ds : List Char) : Prop extends IsDigits ds where
  leading : ds.head? = some '0' → ds.length = 1

theorem isWhole_toDigits (n : Nat) : IsWhole (Nat.toDigits 10 n) where
  toIsDigits := isDigits_toDigits n
  leading zero := by
    cases n with
    | zero => rfl
    | succ n => exact absurd zero (head?_toDigits (n + 1) (by omega))

theorem isWhole_zero : IsWhole ['0'] := isWhole_toDigits 0

theorem readWhole_append {ds rest : List Char} (h : IsWhole ds) (stops : StopsDigits rest) :
    readWhole (ds ++ rest) = some (ds, rest) := by
  have plain : ¬ (ds.head? = some '0' ∧ 1 < ds.length) := fun ⟨zero, long⟩ => by
    rw [h.leading zero] at long
    exact absurd long (by decide)
  simp only [readWhole, readDigits_append h.toIsDigits stops, bind, Option.bind, if_neg plain]

/-! ### Integers -/

/-- The text does not go on with a number before it. -/
def Stops (rest : List Char) : Prop :=
  ∀ c ∈ rest.head?, c.isDigit = false ∧ c ≠ '.' ∧ c ≠ 'e' ∧ c ≠ 'E'

/-- A number is read as it is spelled, whatever follows. -/
structure ReadsBack (n : Number) : Prop where
  start : ∃ c rest, spellNumber n = c :: rest ∧ (c = '-' ∨ c.isDigit = true)
  read : ∀ rest, Stops rest → readNumber (spellNumber n ++ rest) = some (.num n, rest)

theorem stopsDigits_of_stops {rest : List Char} (stops : Stops rest) : StopsDigits rest :=
  fun c hc => (stops c hc).1

theorem readFraction_of_stops {rest : List Char} (stops : Stops rest) :
    readFraction rest = some (none, rest) := by
  unfold readFraction
  split
  case h_1 => exact absurd rfl (stops _ rfl).2.1
  case h_2 => rfl

theorem readExponent_of_stops {rest : List Char} (stops : Stops rest) :
    readExponent rest = some (none, rest) := by
  unfold readExponent
  split
  case h_1 => exact absurd rfl (stops _ rfl).2.2.1
  case h_2 => exact absurd rfl (stops _ rfl).2.2.2
  case h_3 => rfl

theorem readUnsigned_toDigits (negative : Bool) (n : Nat) {rest : List Char} (stops : Stops rest) :
    readUnsigned negative (Nat.toDigits 10 n ++ rest) = some (ofInteger negative n, rest) := by
  have read := readWhole_append (isWhole_toDigits n) (stopsDigits_of_stops stops)
  simp only [readUnsigned, read, bind, Option.bind, readFraction_of_stops stops,
    readExponent_of_stops stops, Option.isNone_none, Bool.and_self, if_true, digitsValue_toDigits]

/-- A number is read when what is spelled after its sign is. -/
theorem readNumber_signed {negative : Bool} {cs rest : List Char} {d : Document}
    (start : ∃ c tail, cs = c :: tail ∧ c.isDigit = true)
    (read : readUnsigned negative (cs ++ rest) = some (d, rest)) :
    readNumber ((if negative then '-' :: cs else cs) ++ rest) = some (d, rest) := by
  cases negative with
  | true => rwa [if_pos rfl, List.cons_append, readNumber]
  | false =>
    obtain ⟨c, tail, rfl, digit⟩ := start
    have unsigned : c ≠ '-' := fun minus => absurd digit (by rw [minus]; decide)
    rw [if_neg nofun, List.cons_append, readNumber, ← List.cons_append, read]
    exact fun _ minus => unsigned (List.cons.inj minus).1

/-- A number reads back when what is spelled after its sign does. -/
theorem readsBack_of_readUnsigned {n : Number} {negative : Bool} {cs : List Char}
    (spelled : spellNumber n = if negative then '-' :: cs else cs)
    (start : ∃ c rest, cs = c :: rest ∧ c.isDigit = true)
    (read : ∀ rest, Stops rest → readUnsigned negative (cs ++ rest) = some (.num n, rest)) :
    ReadsBack n := by
  refine ⟨?_, fun rest stops => ?_⟩
  · obtain ⟨c, tail, rfl, digit⟩ := start
    cases negative with
    | true => exact ⟨_, _, spelled, .inl rfl⟩
    | false => exact ⟨c, tail, spelled, .inr digit⟩
  · rw [spelled]
    exact readNumber_signed start (read rest stops)

/-- An integer of 64 bits, with or without sign, reads back. -/
theorem readsBack_int {i : Int} (low : Int64.minValue.toInt ≤ i) (high : i < UInt64.size) :
    ReadsBack (.int i) := by
  have start := (isDigits_toDigits i.natAbs).exists_cons
  have spelled : spellNumber (.int i) =
      if decide (i < 0) then '-' :: Nat.toDigits 10 i.natAbs else Nat.toDigits 10 i.natAbs := by
    simp only [decide_eq_true_eq]
    rfl
  refine readsBack_of_readUnsigned spelled start fun rest stops => ?_
  rw [readUnsigned_toDigits _ _ stops, ofInteger]
  by_cases negative : i < 0
  · have inside : ¬ (i.natAbs = 0 ∨ -(i.natAbs : Int) < Int64.minValue.toInt) := by omega
    have value : -(i.natAbs : Int) = i := by omega
    rw [if_pos (decide_eq_true negative), if_neg inside, value]
  · have inside : i.natAbs < UInt64.size := by omega
    have value : (i.natAbs : Int) = i := by omega
    rw [if_neg (by simpa using negative), if_pos inside, value]

end Clausal.Document
