import Clausal.Proofs.Json.Floats
import Clausal.Proofs.Outcomes
import Clausal.Render.Error

/-!
# What templates say

Main statement: `Template.fill_exact`. A template is filled exactly when it spells texts and holes
(`Template.Element`) that have their arguments. Each empty hole is for the argument behind that of
the empty hole before it, whatever numbered holes stand between the two (`Template.addresses`).
-/

namespace Clausal

namespace Template

open Document (digitsValue)

/-- What a template is made of. -/
inductive Element
  | text (s : String)
  /-- A hole for the next argument in turn. -/
  | next
  /-- A hole for the argument of a number, which is written behind some zeros. -/
  | numbered (zeros index : ℕ)
deriving DecidableEq

/-- How a character of a text is written: a brace is doubled. -/
def doubled (c : Char) : List Char := if c = '\x7b' ∨ c = '\x7d' then [c, c] else [c]

/-- How the number of an argument is written. -/
def numeral (zeros index : ℕ) : List Char :=
  List.replicate zeros '0' ++ (Text.decimal index).toList

def Element.spelling : Element → List Char
  | text s => s.toList.flatMap doubled
  | next => ['\x7b', '\x7d']
  | numbered zeros index => '\x7b' :: (numeral zeros index ++ ['\x7d'])

/-- The template of elements. -/
def encode (es : List Element) : String := String.ofList (es.flatMap Element.spelling)

/-- What an element stands for: a text for itself, a hole for the argument of a number. -/
def Element.address (before : ℕ) : Element → String ⊕ ℕ
  | text s => .inl s
  | next => .inr before
  | numbered _ index => .inr index

/-- What elements stand for. Empty holes are counted from left to right. -/
def addresses (before : ℕ) (es : List Element) : List (String ⊕ ℕ) :=
  es.mapIdx fun i e => e.address (before + (es.take i).count .next)

/-- There is an argument for each hole. -/
def Fits (args : List String) (es : List Element) : Prop :=
  ∀ i, .inr i ∈ addresses 0 es → i < args.length

instance (args : List String) (es : List Element) : Decidable (Fits args es) :=
  decidable_of_iff (∀ i ∈ (addresses 0 es).filterMap Sum.getRight?, i < args.length)
    (by simp [Fits, List.mem_filterMap])

/-- What is put for an address: arguments are taken as they are. -/
def content (args : List String) : String ⊕ ℕ → String := Sum.elim id (args.getD · "")

/-- The texts and the arguments for the holes, one after the other. -/
def filled (args : List String) (es : List Element) : String :=
  String.join ((addresses 0 es).map (content args))

theorem addresses_cons (before : ℕ) (e : Element) (es : List Element) :
    addresses before (e :: es) =
      e.address before :: addresses (before + if e = .next then 1 else 0) es := by
  have count (i : ℕ) : before + (e :: es.take i).count .next =
      before + (if e = .next then 1 else 0) + (es.take i).count .next := by
    simp only [List.count_cons, beq_iff_eq]
    omega
  simp only [addresses, List.mapIdx_cons, List.take_succ_cons, count]
  simp

/-! ### Numerals -/

theorem numeral_ne_nil (zeros index : ℕ) : numeral zeros index ≠ [] := by
  simp [numeral, Text.decimal, Nat.toDigits_ne_nil]

theorem isDigit_of_mem_numeral {zeros index : ℕ} {d : Char} (h : d ∈ numeral zeros index) :
    d.isDigit = true := by
  rw [numeral, Text.decimal, String.toList_ofList, List.mem_append, List.mem_replicate] at h
  rcases h with ⟨-, rfl⟩ | h
  · decide
  · exact Document.isDigit_of_mem_toDigits h

theorem digitsValue_numeral (zeros index : ℕ) : digitsValue (numeral zeros index) = index := by
  rw [numeral, Document.digitsValue_zeros_append, Text.decimal, String.toList_ofList,
    Document.digitsValue_toDigits]

theorem toDigits_of_isDigit {d : Char} (h : d.isDigit = true) :
    Nat.toDigits 10 (digitsValue [d]) = [d] ∧ digitsValue [d] < 10 := by
  have below : d.toNat < 58 := Nat.lt_succ_of_le (of_decide_eq_true (Bool.and_eq_true_iff.1 h).2)
  exact Text.char_below (P := fun d => d.isDigit = true →
    Nat.toDigits 10 (digitsValue [d]) = [d] ∧ digitsValue [d] < 10) (by decide) d below h

/-- Digits are the numeral of a number behind zeros. -/
theorem exists_numeral {ds : List Char} (ne : ds ≠ []) (digits : ∀ d ∈ ds, d.isDigit = true) :
    ∃ zeros index, ds = numeral zeros index := by
  simp only [numeral, Text.decimal, String.toList_ofList]
  induction ds using List.reverseRecOn with
  | nil => exact absurd rfl ne
  | append_singleton ds d ih =>
    obtain ⟨last, below⟩ := toDigits_of_isDigit (digits d (by simp))
    by_cases first : ds = []
    · exact ⟨0, digitsValue [d], by rw [first, last]; rfl⟩
    · obtain ⟨zeros, index, rfl⟩ := ih first fun c hc => digits c (by simp [hc])
      by_cases zero : index = 0
      · -- the numeral of zero is one more zero in front of the last digit
        refine ⟨zeros + 1, digitsValue [d], ?_⟩
        rw [zero, Nat.toDigits_zero, last, List.replicate_succ']
      · refine ⟨zeros, 10 * index + digitsValue [d], ?_⟩
        rw [← Nat.toDigits_append_toDigits (by decide) (Nat.pos_of_ne_zero zero) below, last,
          List.append_assoc]

/-! ### Elements are read as they are written -/

def Element.segments : Element → List Segment
  | text s => s.toList.map .char
  | next => [.next]
  | numbered _ index => [if index < UInt64.size then .numbered index else .broken .indexTooLarge]

/-- A brace that is not doubled opens a hole. -/
theorem scan_opening {rest : List Char} (single : ∀ tail, rest ≠ '\x7b' :: tail) :
    scan none ('\x7b' :: rest) = scan (some []) rest := by
  rw [scan]
  exact single

theorem scan_stray {rest : List Char} (single : ∀ tail, rest ≠ '\x7d' :: tail) :
    scan none ('\x7d' :: rest) = [.broken .strayBrace] := by
  rw [scan]
  exact single

theorem scan_char {c : Char} (left : c ≠ '\x7b') (right : c ≠ '\x7d') (rest : List Char) :
    scan none (c :: rest) = .char c :: scan none rest := by
  simp [scan, left, right]

theorem scan_doubled (cs rest : List Char) :
    scan none (cs.flatMap doubled ++ rest) = cs.map .char ++ scan none rest := by
  induction cs with
  | nil => rfl
  | cons c cs ih =>
    rw [List.flatMap_cons, List.append_assoc, List.map_cons, List.cons_append, ← ih, doubled]
    split
    case isTrue brace => rcases brace with rfl | rfl <;> rfl
    case isFalse other =>
      rw [not_or] at other
      exact scan_char other.1 other.2 _

/-- The digits of an open hole are collected. -/
theorem scan_digits {ds : List Char} (digits : ∀ d ∈ ds, d.isDigit = true)
    (before rest : List Char) :
    scan (some before) (ds ++ rest) = scan (some (before ++ ds)) rest := by
  induction ds generalizing before with
  | nil => simp
  | cons d ds ih =>
    obtain ⟨digit, digits⟩ := List.forall_mem_cons.1 digits
    rw [List.cons_append, scan, if_pos digit, ih digits, List.append_assoc, List.singleton_append]
    rintro rfl
    exact absurd digit (by decide)

theorem scan_spelling (e : Element) (rest : List Char) :
    scan none (e.spelling ++ rest) = e.segments ++ scan none rest := by
  cases e with
  | text s => exact scan_doubled s.toList rest
  | next => rfl
  | numbered zeros index =>
    have digits : ∀ d ∈ numeral zeros index, d.isDigit = true := fun d => isDigit_of_mem_numeral
    have opened : scan none (Element.spelling (.numbered zeros index) ++ rest) =
        scan (some []) (numeral zeros index ++ '\x7d' :: rest) := by
      obtain ⟨d, ds, eq⟩ := List.exists_cons_of_ne_nil (numeral_ne_nil zeros index)
      rw [Element.spelling, eq, List.cons_append, List.append_assoc]
      refine scan_opening fun tail same => ?_
      have digit := digits d (eq ▸ List.mem_cons_self)
      rw [List.head_eq_of_cons_eq same] at digit
      exact absurd digit (by decide)
    rw [opened, scan_digits digits, List.nil_append, scan, hole, digitsValue_numeral,
      if_neg (numeral_ne_nil zeros index)]
    rfl

theorem scan_spellings (es : List Element) :
    scan none (es.flatMap Element.spelling) = es.flatMap Element.segments := by
  induction es with
  | nil => rfl
  | cons e es ih => rw [List.flatMap_cons, scan_spelling, ih, List.flatMap_cons]

/-! ### What is read has been written -/

/-- What has been read of an open hole. -/
def opened : Option (List Char) → List Char
  | none => []
  | some digits => '\x7b' :: digits

/-- Characters that can be read to their end are the spelling of elements. By induction along the
reading, where the digits of an open hole have been read already. -/
theorem exists_elements {hole : Option (List Char)} {cs : List Char}
    (digits : ∀ ds ∈ hole, ∀ d ∈ ds, d.isDigit = true)
    (sound : ∀ why, .broken why ∉ scan hole cs) :
    ∃ es : List Element, opened hole ++ cs = es.flatMap Element.spelling := by
  induction hole, cs using scan.induct with
  | case1 => exact ⟨[], rfl⟩
  | case2 rest ih =>
    obtain ⟨es, eq⟩ := ih digits fun why h => sound why (by simp [scan, h])
    exact ⟨.text "\x7b" :: es, congrArg (['\x7b', '\x7b'] ++ ·) eq⟩
  | case3 rest ih =>
    obtain ⟨es, eq⟩ := ih digits fun why h => sound why (by simp [scan, h])
    exact ⟨.text "\x7d" :: es, congrArg (['\x7d', '\x7d'] ++ ·) eq⟩
  | case4 rest single ih =>
    -- a lone brace opens a hole, whose digits are read next
    rw [scan_opening single] at sound
    exact ih (by simp) sound
  | case5 rest single =>
    rw [scan_stray single] at sound
    exact absurd List.mem_cons_self (sound .strayBrace)
  | case6 c rest _ _ left right ih =>
    rw [scan_char left right] at sound
    obtain ⟨es, eq⟩ := ih digits fun why h => sound why (List.mem_cons_of_mem _ h)
    refine ⟨.text (String.singleton c) :: es, ?_⟩
    have plain : doubled c = [c] := if_neg (not_or.2 ⟨left, right⟩)
    rw [List.flatMap_cons, ← eq]
    simp [Element.spelling, opened, plain]
  | case7 ds rest ih =>
    obtain ⟨es, eq⟩ := ih (by simp) fun why h => sound why (by simp [scan, h])
    by_cases empty : ds = []
    · refine ⟨.next :: es, ?_⟩
      rw [List.flatMap_cons, ← eq, empty]
      rfl
    · obtain ⟨zeros, index, rfl⟩ := exists_numeral empty (digits ds rfl)
      refine ⟨.numbered zeros index :: es, ?_⟩
      rw [List.flatMap_cons, ← eq]
      simp [Element.spelling, opened]
  | case8 ds c rest other digit ih =>
    rw [scan, if_pos digit] at sound
    · obtain ⟨es, eq⟩ := ih (by simpa [or_imp, forall_and, digit] using digits ds rfl) sound
      exact ⟨es, by rw [← eq]; simp [opened]⟩
    · exact other
  | case9 ds c rest other letter =>
    rw [scan, if_neg letter] at sound
    · exact absurd List.mem_cons_self (sound .openHole)
    · exact other
  | case10 ds => exact absurd List.mem_cons_self (sound .openHole)

/-! ### Filling -/

variable {args : List String}

theorem argument_eq_ok_iff {i : ℕ} {cs : List Char} :
    argument args i = .ok cs ↔ i < args.length ∧ cs = (args.getD i "").toList := by
  rw [argument, List.getD_eq_getElem?_getD]
  by_cases inside : i < args.length
  · rw [List.getElem?_eq_getElem inside]
    simp [inside, eq_comm]
  · rw [List.getElem?_eq_none (not_lt.1 inside)]
    simp [inside]

/-- A hole that is filled, with what comes behind it. -/
theorem argument_append_eq_ok_iff {i : ℕ} {later : Except TemplateFault (List Char)}
    {cs : List Char} :
    (do return (← argument args i) ++ (← later)) = Except.ok cs ↔
      i < args.length ∧ ∃ others, later = .ok others ∧
        cs = (args.getD i "").toList ++ others := by
  constructor
  · intro h
    obtain ⟨a, found, h⟩ := bind_eq_ok.1 h
    obtain ⟨others, filled, h⟩ := bind_eq_ok.1 h
    obtain ⟨inside, rfl⟩ := argument_eq_ok_iff.1 found
    exact ⟨inside, others, filled, (Except.ok.inj h).symm⟩
  · rintro ⟨inside, others, filled, rfl⟩
    rw [argument_eq_ok_iff.2 ⟨inside, rfl⟩, filled]
    rfl

theorem fillSegments_chars (args : List String) (before : ℕ) (cs : List Char)
    (rest : List Segment) :
    fillSegments args before (cs.map .char ++ rest) =
      (cs ++ ·) <$> fillSegments args before rest := by
  induction cs with
  | nil => cases h : fillSegments args before rest <;> simp [h]
  | cons c cs ih =>
    rw [List.map_cons, List.cons_append, fillSegments, ih]
    cases fillSegments args before rest <;> rfl

/-- What has been filled has been read to its end. -/
theorem not_broken_of_fillSegments {segments : List Segment} {before : ℕ} {cs : List Char}
    (h : fillSegments args before segments = .ok cs) (why : TemplateFault) :
    .broken why ∉ segments := by
  induction segments generalizing before cs with
  | nil => exact List.not_mem_nil
  | cons s rest ih =>
    cases s with
    | char c =>
      obtain ⟨others, later, -⟩ := bind_eq_ok.1 h
      simpa using ih later
    | next | numbered =>
      obtain ⟨a, -, h⟩ := bind_eq_ok.1 h
      obtain ⟨others, later, -⟩ := bind_eq_ok.1 h
      simpa using ih later
    | broken => cases h

/-- An element is filled when there is an argument for it. Where the arguments are no more than the
numbers of 64 bits, a number that is not read has none. -/
theorem fillSegments_element (counted : args.length ≤ UInt64.size) {e : Element}
    {rest : List Segment} {before : ℕ} {cs : List Char} :
    fillSegments args before (e.segments ++ rest) = .ok cs ↔
      (∀ i, e.address before = .inr i → i < args.length) ∧
        ∃ others, fillSegments args (before + if e = .next then 1 else 0) rest = .ok others ∧
          cs = (content args (e.address before)).toList ++ others := by
  cases e with
  | text s =>
    rw [Element.segments, fillSegments_chars, map_eq_ok]
    simp [Element.address, content, eq_comm]
  | next =>
    refine argument_append_eq_ok_iff.trans (and_congr_left' ?_)
    simp [Element.address]
  | numbered zeros index =>
    by_cases word : index < UInt64.size
    · rw [Element.segments, if_pos word]
      refine argument_append_eq_ok_iff.trans (and_congr_left' ?_)
      simp [Element.address]
    · -- an index that is no machine word is out of range, for there are not so many arguments
      have missing : ¬ index < args.length := fun inside => word (inside.trans_le counted)
      rw [Element.segments, if_neg word]
      exact iff_of_false nofun fun h => missing (h.1 index rfl)

/-- The segments of elements are filled when the arguments for their holes are there. -/
theorem fillSegments_eq_ok_iff (counted : args.length ≤ UInt64.size) {es : List Element}
    {before : ℕ} {cs : List Char} :
    fillSegments args before (es.flatMap Element.segments) = .ok cs ↔
      (∀ i, .inr i ∈ addresses before es → i < args.length) ∧
        cs = (String.join ((addresses before es).map (content args))).toList := by
  induction es generalizing before cs with
  | nil => simp [fillSegments, addresses, eq_comm]
  | cons e es ih =>
    rw [addresses_cons, List.flatMap_cons, fillSegments_element counted]
    simp only [ih, List.mem_cons, List.map_cons, String.join_cons, String.toList_append]
    constructor
    · rintro ⟨first, others, ⟨later, rfl⟩, rfl⟩
      refine ⟨?_, rfl⟩
      rintro i (here | there)
      · exact first i here.symm
      · exact later i there
    · rintro ⟨each, rfl⟩
      refine ⟨fun i here => each i (.inl here.symm), _, ⟨?_, rfl⟩, rfl⟩
      exact fun i there => each i (.inr there)

/-- **A template is filled exactly when it is the spelling of texts and holes for which there are
arguments**, and then the texts and these arguments make up the result. Otherwise the fault of the
template is reported. -/
theorem fill_exact (op template : String) (counted : args.length ≤ UInt64.size) :
    (∀ text, (fill template args).mapError (RenderError.badMapping op template) = .ok text ↔
      ∃ es, template = encode es ∧ Fits args es ∧ text = filled args es) ∧
    ((∀ es, template = encode es → ¬ Fits args es) → ∃ why,
      (fill template args).mapError (RenderError.badMapping op template) =
        .error (.badMapping op template why)) := by
  have decoded (text : String) : fill template args = .ok text ↔
      ∃ es, template = encode es ∧ Fits args es ∧ text = filled args es := by
    rw [fill, map_eq_ok]
    constructor
    · -- a template that can be filled has no fault in it, so it spells out elements
      rintro ⟨cs, filled, rfl⟩
      obtain ⟨es, spelled⟩ : ∃ es, opened none ++ template.toList =
          List.flatMap Element.spelling es :=
        exists_elements nofun (not_broken_of_fillSegments filled)
      have written : template.toList = es.flatMap Element.spelling := spelled
      rw [written, scan_spellings] at filled
      obtain ⟨fits, rfl⟩ := (fillSegments_eq_ok_iff counted).1 filled
      refine ⟨es, ?_, fits, String.ofList_toList⟩
      rw [encode, ← written, String.ofList_toList]
    · rintro ⟨es, rfl, fits, rfl⟩
      refine ⟨_, ?_, String.ofList_toList⟩
      rw [encode, String.toList_ofList, scan_spellings]
      exact (fillSegments_eq_ok_iff counted).2 ⟨fits, rfl⟩
  refine ⟨fun text => mapError_eq_ok.trans (decoded text), fun unfit => ?_⟩
  cases h : fill template args with
  | ok text =>
    obtain ⟨es, written, fits, -⟩ := (decoded text).1 h
    exact absurd fits (unfit es written)
  | error why => exact ⟨why, rfl⟩

/-- Doubled braces, numbered holes and empty ones side by side. -/
def interleaved : String := "\x7b\x7b\x7b1\x7d\x7d\x7d \x7b\x7d, \x7b00\x7d\x7b\x7d"

/-- An argument that looks like a hole is not filled once more. -/
theorem fill_exact_interleaved :
    ["a", "\x7b\x7d"].length ≤ UInt64.size ∧
      (fill interleaved ["a", "\x7b\x7d"]).mapError (RenderError.badMapping "pair" interleaved) =
        .ok "\x7b\x7b\x7d\x7d a, a\x7b\x7d" := by
  have counted : ["a", "\x7b\x7d"].length ≤ UInt64.size := by decide
  refine ⟨counted, ((fill_exact _ _ counted).1 _).2 ?_⟩
  exact ⟨[.text "\x7b", .numbered 0 1, .text "\x7d ", .next, .text ", ", .numbered 1 0, .next],
    by decide +kernel, by decide +kernel, by decide +kernel⟩

end Template

end Clausal
