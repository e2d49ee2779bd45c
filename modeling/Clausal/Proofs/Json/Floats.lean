import Clausal.Proofs.Json.Leaves
import Clausal.Proofs.Number.Nearest

/-!
# Floating-point numbers are read as they are spelled

Main statements: `readNumber_spell`, and from it `readsBack_float`. A spelling consists of digits, a
fraction and an exponent, and is read as the decimal that these stand for (`readUnsigned_parts`).
Whichever way the shortest decimal of a number is laid out, it is that decimal which is read, so long
as an integer keeps its fraction: without one it would be read as an integer.
-/

namespace Clausal.Document

open Json Binary64

/-! ### Digits -/

theorem digitsValue_zeros_append (k : ℕ) (cs : List Char) :
    digitsValue (List.replicate k '0' ++ cs) = digitsValue cs := by
  rw [digitsValue_eq, digitsValue_eq, Nat.ofDigitChars_append, Nat.ofDigitChars_replicate_zero,
    mul_zero]

theorem digitsValue_append_zeros (k : ℕ) (cs : List Char) :
    digitsValue (cs ++ List.replicate k '0') = 10 ^ k * digitsValue cs := by
  rw [digitsValue_eq, digitsValue_eq, Nat.ofDigitChars_append, Nat.ofDigitChars_replicate_zero]

theorem IsDigits.append_zeros {ds : List Char} (h : IsDigits ds) (k : ℕ) :
    IsDigits (ds ++ List.replicate k '0') := by
  refine ⟨List.append_ne_nil_of_left_ne_nil h.nonempty _, fun c hc => ?_⟩
  rcases List.mem_append.1 hc with hc | hc
  · exact h.digits c hc
  · rw [List.eq_of_mem_replicate hc]
    rfl

theorem IsDigits.zeros_append {ds : List Char} (h : IsDigits ds) (k : ℕ) :
    IsDigits (List.replicate k '0' ++ ds) := by
  refine ⟨List.append_ne_nil_of_right_ne_nil _ h.nonempty, fun c hc => ?_⟩
  rcases List.mem_append.1 hc with hc | hc
  · rw [List.eq_of_mem_replicate hc]
    rfl
  · exact h.digits c hc

theorem IsDigits.drop {ds : List Char} (h : IsDigits ds) {k : ℕ} (left : k < ds.length) :
    IsDigits (ds.drop k) := by
  refine ⟨fun none => ?_, fun c hc => h.digits c (List.mem_of_mem_drop hc)⟩
  exact absurd (List.drop_eq_nil_iff.1 none) (not_le.2 left)

/-! ### Fraction and exponent -/

variable {style : Style}

def spellFraction (fraction : Option (List Char)) : List Char := fraction.elim [] ('.' :: ·)

def spellExponent (style : Style) (exponent : Option ℤ) : List Char :=
  exponent.elim [] style.exponentText

theorem stopsDigits_spellExponent (style : Style) (exponent : Option ℤ) {rest : List Char}
    (stops : Stops rest) : StopsDigits (spellExponent style exponent ++ rest) := by
  cases exponent with
  | none => exact stopsDigits_of_stops stops
  | some e =>
    intro c hc
    obtain rfl : 'e' = c := by simpa [spellExponent, Style.exponentText] using hc
    rfl

theorem stopsDigits_spellFraction (fraction : Option (List Char)) {rest : List Char}
    (stops : StopsDigits rest) : StopsDigits (spellFraction fraction ++ rest) := by
  cases fraction with
  | none => exact stops
  | some ds =>
    intro c hc
    obtain rfl : '.' = c := by simpa [spellFraction] using hc
    rfl

theorem readExponent_spelled (exponent : Option ℤ) {rest : List Char} (stops : Stops rest) :
    readExponent (spellExponent style exponent ++ rest) = some (exponent, rest) := by
  cases exponent with
  | none => exact readExponent_of_stops stops
  | some e =>
    have digits := readDigits_append (isDigits_toDigits e.natAbs) (stopsDigits_of_stops stops)
    simp only [spellExponent, Option.elim, Style.exponentText]
    split
    case isTrue negative =>
      have value : -(e.natAbs : ℤ) = e := by omega
      simp only [List.cons_append, List.nil_append, readExponent, digits, bind, Option.bind,
        digitsValue_toDigits, value]
    case isFalse nonnegative =>
      have value : (e.natAbs : ℤ) = e := by omega
      split
      case isTrue =>
        simp only [List.cons_append, List.nil_append, readExponent, digits, bind, Option.bind,
          digitsValue_toDigits, value]
      case isFalse =>
        -- what follows the letter is a digit and no sign
        obtain ⟨d, tail, eq, digit⟩ := (isDigits_toDigits e.natAbs).exists_cons
        rw [eq, List.cons_append] at digits
        simp only [eq, List.cons_append, List.nil_append]
        rw [readExponent]
        · simp only [digits, bind, Option.bind]
          rw [← eq, digitsValue_toDigits, value]
        · exact fun cs minus => absurd digit (by rw [(List.cons.inj minus).1]; decide)
        · exact fun cs plus => absurd digit (by rw [(List.cons.inj plus).1]; decide)

theorem readFraction_spelled {fraction : Option (List Char)} (h : ∀ ds ∈ fraction, IsDigits ds)
    (exponent : Option ℤ) {rest : List Char} (stops : Stops rest) :
    readFraction (spellFraction fraction ++ (spellExponent style exponent ++ rest)) =
      some (fraction, spellExponent style exponent ++ rest) := by
  cases fraction with
  | some ds =>
    have digits := readDigits_append (h ds rfl) (stopsDigits_spellExponent style exponent stops)
    simp only [spellFraction, Option.elim, List.cons_append, readFraction, digits, bind, Option.bind]
  | none =>
    cases exponent with
    | none => exact readFraction_of_stops stops
    | some e =>
      simp only [spellFraction, spellExponent, Option.elim, List.nil_append, Style.exponentText,
        List.cons_append]
      rfl

/-- A number with a fraction or an exponent is read as the decimal that its parts stand for. -/
theorem readUnsigned_parts (negative : Bool) {whole : List Char} (hw : IsWhole whole)
    {fraction : Option (List Char)} (hf : ∀ ds ∈ fraction, IsDigits ds) {exponent : Option ℤ}
    (isFloat : fraction.isSome ∨ exponent.isSome) {rest : List Char} (stops : Stops rest) :
    readUnsigned negative (whole ++ (spellFraction fraction ++ (spellExponent style exponent ++ rest))) =
      some (ofFloat (.ofDecimal negative (digitsValue (whole ++ fraction.getD []))
        (exponent.getD 0 - (fraction.getD []).length)), rest) := by
  have notInteger : (fraction.isNone && exponent.isNone) = false := by
    cases fraction <;> cases exponent <;> simp_all
  have digits := readWhole_append hw
    (stopsDigits_spellFraction fraction (stopsDigits_spellExponent style exponent stops))
  simp only [readUnsigned, digits, readFraction_spelled hf exponent stops,
    readExponent_spelled exponent stops, bind, Option.bind, notInteger, Bool.false_eq_true, if_false]

/-! ### Layouts -/

/-- Characters that are read as a decimal of a value, whatever the sign before them and whatever
follows. -/
structure ReadsDecimal (cs : List Char) (q : ℚ) : Prop where
  start : ∃ c rest, cs = c :: rest ∧ c.isDigit = true
  read : ∀ negative rest, Stops rest → ∃ digits exponent,
    readUnsigned negative (cs ++ rest) = some (ofFloat (.ofDecimal negative digits exponent), rest) ∧
      (digits : ℚ) * 10 ^ exponent = q

theorem readsDecimal_parts (style : Style) {whole : List Char} (hw : IsWhole whole)
    (fraction : Option (List Char)) (exponent : Option ℤ) (hf : ∀ ds ∈ fraction, IsDigits ds)
    (isFloat : fraction.isSome ∨ exponent.isSome) {q : ℚ}
    (value : (digitsValue (whole ++ fraction.getD []) : ℚ) *
      10 ^ (exponent.getD 0 - (fraction.getD []).length) = q) :
    ReadsDecimal (whole ++ (spellFraction fraction ++ spellExponent style exponent)) q := by
  constructor
  · obtain ⟨d, ds, rfl, digit⟩ := hw.exists_cons
    exact ⟨d, _, rfl, digit⟩
  · intro negative rest stops
    refine ⟨_, _, ?_, value⟩
    rw [List.append_assoc, List.append_assoc]
    exact readUnsigned_parts negative hw hf isFloat stops

section Layouts

variable {n : ℕ} (hn : n ≠ 0)

include hn

/-- Digits of a number that is not zero do not start with a zero, nor does what begins with them. -/
theorem isWhole_of_head {ds : List Char} (h : IsDigits ds)
    (head : ds.head? = (Nat.toDigits 10 n).head?) : IsWhole ds where
  toIsDigits := h
  leading zero := absurd (head.symm.trans zero) (head?_toDigits n (Nat.pos_of_ne_zero hn))

theorem isWhole_append_zeros (k : ℕ) :
    IsWhole (Nat.toDigits 10 n ++ List.replicate k '0') :=
  isWhole_of_head hn ((isDigits_toDigits n).append_zeros k)
    (List.head?_append_of_ne_nil _ Nat.toDigits_ne_nil)

theorem isWhole_take {k : ℕ} (hk : k ≠ 0) : IsWhole ((Nat.toDigits 10 n).take k) := by
  obtain ⟨d, ds, eq⟩ := List.exists_cons_of_ne_nil (Nat.toDigits_ne_nil (n := n) (b := 10))
  obtain ⟨k, rfl⟩ := Nat.exists_eq_succ_of_ne_zero hk
  refine isWhole_of_head hn ⟨by rw [eq]; nofun, fun c hc => ?_⟩ (by rw [eq]; rfl)
  exact isDigit_of_mem_toDigits (List.mem_of_mem_take hc)

theorem readsDecimal_positional (keeps : style.integerFraction = true) (e : ℤ) :
    ReadsDecimal (style.positional (Nat.toDigits 10 n) (e + (Nat.toDigits 10 n).length - 1))
      (n * 10 ^ e) := by
  have some := List.length_pos_iff.2 (Nat.toDigits_ne_nil (n := n) (b := 10))
  have value := digitsValue_toDigits n
  have digits := isDigits_toDigits n
  unfold Style.positional
  split
  case isTrue small =>
    -- zeros stand between the point and the digits
    set zeros := (-(e + (Nat.toDigits 10 n).length - 1) - 1).toNat with hzeros
    have parts := readsDecimal_parts style isWhole_zero
      (.some (List.replicate zeros '0' ++ Nat.toDigits 10 n)) none
      (fun _ h => Option.mem_some_iff.1 h ▸ digits.zeros_append zeros) (.inl rfl) rfl
    convert parts using 1
    · simp [spellFraction, spellExponent]
    · have leading := digitsValue_zeros_append 1 (List.replicate zeros '0' ++ Nat.toDigits 10 n)
      rw [Option.getD_some, show ['0'] = List.replicate 1 '0' from rfl, leading,
        digitsValue_zeros_append, value]
      congr 2
      simp only [List.length_append, List.length_replicate, Option.getD_none]
      omega
  case isFalse large =>
    dsimp only
    split
    case isTrue short =>
      -- the digits are filled up with zeros
      set zeros := (e + (Nat.toDigits 10 n).length - 1).toNat + 1 - (Nat.toDigits 10 n).length
        with hzeros
      have parts := readsDecimal_parts style (isWhole_append_zeros hn zeros) (.some ['0']) none
        (fun _ h => Option.mem_some_iff.1 h ▸ isWhole_zero.toIsDigits) (.inl rfl) rfl
      convert parts using 1
      · simp [spellFraction, spellExponent]
      · have filled : Nat.toDigits 10 n ++ List.replicate zeros '0' ++ ['0'] =
            Nat.toDigits 10 n ++ List.replicate (zeros + 1) '0' := by
          rw [List.replicate_succ', List.append_assoc]
        have place : e = zeros := by omega
        rw [Option.getD_some, filled, digitsValue_append_zeros, value, place, zpow_natCast]
        push_cast
        simp only [Option.getD_none, List.length_singleton, pow_succ]
        norm_num
        ring
    case isFalse long =>
      -- the point stands between digits
      set count := (e + (Nat.toDigits 10 n).length - 1).toNat + 1 with hcount
      have rest := digits.drop (not_le.1 long)
      have parts := readsDecimal_parts style (isWhole_take hn (k := count) (by omega))
        (.some ((Nat.toDigits 10 n).drop count)) none
        (fun _ h => Option.mem_some_iff.1 h ▸ rest) (.inl rfl) rfl
      convert parts using 1
      · simp [spellFraction, spellExponent]
      · rw [Option.getD_some, List.take_append_drop, value]
        congr 2
        simp only [List.length_drop, Option.getD_none]
        omega

theorem readsDecimal_scientific (e : ℤ) :
    ReadsDecimal (style.scientific (Nat.toDigits 10 n) (e + (Nat.toDigits 10 n).length - 1))
      (n * 10 ^ e) := by
  have some := List.length_pos_iff.2 (Nat.toDigits_ne_nil (n := n) (b := 10))
  have value := digitsValue_toDigits n
  have digits := isDigits_toDigits n
  unfold Style.scientific
  split
  case isTrue long =>
    have rest := digits.drop long
    have parts := readsDecimal_parts style (isWhole_take hn one_ne_zero)
      (.some ((Nat.toDigits 10 n).drop 1)) (.some (e + (Nat.toDigits 10 n).length - 1))
      (fun _ h => Option.mem_some_iff.1 h ▸ rest) (.inl rfl) rfl
    convert parts using 1
    · simp [spellFraction, spellExponent]
    · rw [Option.getD_some, List.take_append_drop, value]
      congr 2
      simp only [List.length_drop, Option.getD_some]
      omega
  case isFalse short =>
    split
    case isTrue =>
      -- a zero after the only digit
      have parts := readsDecimal_parts style (isWhole_take hn one_ne_zero) (.some ['0'])
        (.some (e + (Nat.toDigits 10 n).length - 1))
        (fun _ h => Option.mem_some_iff.1 h ▸ isWhole_zero.toIsDigits) (.inl rfl) rfl
      convert parts using 1
      · simp [spellFraction, spellExponent]
      · have place : e = (e + (Nat.toDigits 10 n).length - 1 - 1) + 1 := by omega
        rw [Option.getD_some, List.take_of_length_le (by omega)]
        rw [show (['0'] : List Char) = List.replicate 1 '0' from rfl, digitsValue_append_zeros, value]
        simp only [Option.getD_some, List.length_replicate]
        nth_rewrite 1 [place]
        rw [zpow_add_one₀ (by norm_num)]
        push_cast
        ring
    case isFalse =>
      have parts := readsDecimal_parts style (isWhole_take hn one_ne_zero) none
        (.some (e + (Nat.toDigits 10 n).length - 1)) nofun (.inr rfl) rfl
      convert parts using 1
      · simp [spellFraction, spellExponent]
      · rw [Option.getD_none, List.append_nil, List.take_of_length_le (by omega), value]
        congr 2
        simp only [List.length_nil, Option.getD_some]
        omega

end Layouts

/-- Zero is spelled without looking for digits. -/
theorem readsDecimal_zero (keeps : style.integerFraction = true) :
    ReadsDecimal (style.positional ['0'] 0) 0 := by
  have zero : (digitsValue (['0'] ++ (some ['0']).getD []) : ℚ) *
      10 ^ ((none : Option ℤ).getD 0 - ((some ['0']).getD []).length) = 0 := by
    rw [show digitsValue (['0'] ++ (some ['0']).getD []) = 0 from rfl, Nat.cast_zero, zero_mul]
  have parts := readsDecimal_parts style isWhole_zero (some ['0']) none
    (fun _ h => Option.mem_some_iff.1 h ▸ isWhole_zero.toIsDigits) (.inl rfl) zero
  convert parts using 1
  simp [Style.positional, spellFraction, spellExponent, keeps]

/-! ### Numbers -/

theorem not_isNaN_of_isFinite {x : Binary64} (finite : x.isFinite = true) : ¬ x.isNaN = true := by
  have below : x.magnitude < infinityMagnitude := of_decide_eq_true finite
  simp only [isNaN, decide_eq_true_eq]
  omega

/-- Without its sign, a finite number is spelled as a decimal that rounds to it. -/
theorem exists_readsDecimal (keeps : style.integerFraction = true) {x : Binary64}
    (finite : x.isFinite = true) :
    ∃ q, ReadsDecimal (style.unsigned x) q ∧ ∀ (digits : ℕ) (exponent : ℤ),
      (digits : ℚ) * 10 ^ exponent = q → Binary64.ofDecimal x.isNegative digits exponent = x := by
  have number := not_isNaN_of_isFinite finite
  unfold Style.unsigned
  rw [if_neg number, finite, Bool.not_true, if_neg nofun]
  split
  case isTrue zero =>
    refine ⟨0, readsDecimal_zero keeps, fun digits exponent value => ?_⟩
    have none : digits = 0 := by
      have : (digits : ℚ) = 0 := (mul_eq_zero.1 value).resolve_right (by positivity)
      exact_mod_cast this
    -- zero keeps its sign
    rw [none, ofDecimal, magnitudeOfDecimal, if_pos rfl, ← zero, ofMagnitude_magnitude]
  case isFalse positive =>
    refine ⟨(x.shortest style.tie).toRat, ?_, fun digits exponent value =>
      ofDecimal_shortest finite positive style.tie value⟩
    have some := digits_shortest_ne_zero finite positive style.tie
    dsimp only
    split
    · exact readsDecimal_positional some keeps _
    · exact readsDecimal_scientific some _

/-- **A finite floating-point number is read as it is spelled**, in every style that keeps the
fraction of an integer. -/
theorem readNumber_spell (keeps : style.integerFraction = true) {x : Binary64}
    (finite : x.isFinite = true) {rest : List Char} (stops : Stops rest) :
    readNumber (style.spell x ++ rest) = some (.num (.float x), rest) := by
  obtain ⟨q, reads, rounds⟩ := exists_readsDecimal keeps finite
  obtain ⟨digits, exponent, read, value⟩ := reads.read x.isNegative rest stops
  have spelled : style.spell x =
      if x.isNegative then '-' :: style.unsigned x else style.unsigned x := by
    simp [Style.spell, not_isNaN_of_isFinite finite]
  rw [spelled, readNumber_signed reads.start read, rounds digits exponent value, ofFloat,
    if_pos finite]

theorem exists_cons_spell (keeps : style.integerFraction = true) {x : Binary64}
    (finite : x.isFinite = true) :
    ∃ c rest, style.spell x = c :: rest ∧ (c = '-' ∨ c.isDigit = true) := by
  obtain ⟨q, reads, -⟩ := exists_readsDecimal keeps finite
  obtain ⟨c, tail, eq, digit⟩ := reads.start
  unfold Style.spell
  split
  · exact ⟨_, _, rfl, .inl rfl⟩
  · exact ⟨c, tail, eq, .inr digit⟩

/-- **A finite floating-point number reads back.** -/
theorem readsBack_float {x : Binary64} (finite : x.isFinite = true) : ReadsBack (.float x) :=
  ⟨exists_cons_spell rfl finite, fun _ stops => readNumber_spell rfl finite stops⟩

end Clausal.Document
