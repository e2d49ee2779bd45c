import Clausal.Proofs.Json.Layout
import Clausal.Proofs.Json.Leaves

/-!
# Values are read as they are laid out

Main statement: `readValue_spread`. Whatever the blanks, a value is read as the document of that
value, when its numbers read back and it is not nested more deeply than there is room for. A value
takes at most two steps of the reader for each of its characters, which bounds the fuel. Whole texts
follow (`readChars_spread`, `read_indented`).
-/

namespace Clausal

mutual

/-- All numbers in a value have a property. -/
def Json.HasNumbers (P : Json.Number → Prop) : Json → Prop
  | .num n => P n
  | .arr items => HaveNumbers P items
  | .obj members => HaveNumbersInValues P members
  | _ => True

def Json.HaveNumbers (P : Json.Number → Prop) : List Json → Prop
  | [] => True
  | item :: rest => item.HasNumbers P ∧ HaveNumbers P rest

def Json.HaveNumbersInValues (P : Json.Number → Prop) : List (String × Json) → Prop
  | [] => True
  | (_, value) :: rest => value.HasNumbers P ∧ HaveNumbersInValues P rest

end

namespace Json

variable {P : Number → Prop}

theorem haveNumbers_iff {items : List Json} :
    HaveNumbers P items ↔ ∀ item ∈ items, item.HasNumbers P := by
  induction items with
  | nil => simp [HaveNumbers]
  | cons item rest ih => rw [HaveNumbers, ih, List.forall_mem_cons]

theorem haveNumbersInValues_iff {members : List (String × Json)} :
    HaveNumbersInValues P members ↔ ∀ m ∈ members, m.2.HasNumbers P := by
  induction members with
  | nil => simp [HaveNumbersInValues]
  | cons m rest ih => rw [HaveNumbersInValues, ih, List.forall_mem_cons]

end Json

namespace Document

open Json

/-! ### Blanks -/

theorem skipSpaces_append {blanks : List Char} (h : ∀ c ∈ blanks, isSpace c = true)
    (cs : List Char) : skipSpaces (blanks ++ cs) = skipSpaces cs :=
  List.dropWhile_append_of_pos h

theorem skipSpaces_cons {c : Char} (h : isSpace c = false) (cs : List Char) :
    skipSpaces (c :: cs) = c :: cs := List.dropWhile_cons_of_neg (by simp [h])

theorem skipSpaces_skipSpaces (cs : List Char) : skipSpaces (skipSpaces cs) = skipSpaces cs :=
  List.dropWhile_idempotent ..

theorem readValue_append {blanks : List Char} (h : ∀ c ∈ blanks, isSpace c = true)
    (fuel room : Nat) (cs : List Char) :
    readValue fuel room (blanks ++ cs) = readValue fuel room cs := by
  cases fuel with
  | zero => rfl
  | succ fuel => simp only [readValue, skipSpaces_append h]

theorem readItems_skipSpaces (fuel room : Nat) (cs : List Char) :
    readItems fuel room (skipSpaces cs) = readItems fuel room cs := by
  match fuel with
  | 0 => rfl
  | 1 => rfl
  | fuel + 2 => simp only [readItems, readValue, skipSpaces_skipSpaces]

theorem readMembers_skipSpaces (fuel room : Nat) (cs : List Char) :
    readMembers fuel room (skipSpaces cs) = readMembers fuel room cs := by
  cases fuel with
  | zero => rfl
  | succ fuel => simp only [readMembers, skipSpaces_skipSpaces]

/-- A number ends before blanks and what closes or separates entries. -/
theorem stops_cons {c : Char} (h : c ∈ [' ', '\n', '\t', '\r', ',', ']', '\x7d']) (cs : List Char) :
    Stops (c :: cs) := by
  have all : ∀ c ∈ [' ', '\n', '\t', '\r', ',', ']', '\x7d'],
      c.isDigit = false ∧ c ≠ '.' ∧ c ≠ 'e' ∧ c ≠ 'E' := by simp
  intro d hd
  obtain rfl : c = d := by simpa using hd
  exact all c h

theorem stops_append {blanks : List Char} (h : ∀ c ∈ blanks, isSpace c = true) {c : Char}
    (hc : c ∈ [',', ']', '\x7d']) (cs : List Char) : Stops (blanks ++ c :: cs) := by
  cases blanks with
  | nil => exact stops_cons (List.mem_append_right [' ', '\n', '\t', '\r'] hc) cs
  | cons b blanks =>
    have blank := h b List.mem_cons_self
    refine stops_cons ?_ _
    simp only [isSpace, Bool.or_eq_true, decide_eq_true_eq] at blank
    simp only [List.mem_cons]
    tauto

/-! ### Leaves -/

theorem start_of_number {c : Char} (h : c = '-' ∨ c.isDigit = true) :
    isSpace c = false ∧ c ≠ ']' := by
  rcases h with rfl | h
  · decide
  · have below : c.toNat < 58 := Nat.lt_succ_of_le (of_decide_eq_true (Bool.and_eq_true_iff.1 h).2)
    exact Text.char_below (P := fun c => c.isDigit = true → isSpace c = false ∧ c ≠ ']') (by decide) c
      below h

theorem readValue_number (fuel room : Nat) {c : Char} (h : c = '-' ∨ c.isDigit = true)
    (cs : List Char) : readValue (fuel + 1) room (c :: cs) = readNumber (c :: cs) := by
  rw [readValue.eq_def]
  simp only [skipSpaces_cons (start_of_number h).1]
  split
  case h_7 => rfl
  all_goals
    rename_i eq
    obtain ⟨rfl, -⟩ := List.cons.inj eq
    exact absurd h (by decide)

theorem readWord_append (word : String) (d : Document) (rest : List Char) :
    readWord word d (word.toList ++ rest) = some (d, rest) := by
  have start : word.toList.isPrefixOf (word.toList ++ rest) = true :=
    List.isPrefixOf_iff_prefix.2 (List.prefix_append _ _)
  rw [readWord, if_pos start, ← String.length_toList, List.drop_left]

theorem readValue_string (fuel room : Nat) (s : String) (rest : List Char) :
    readValue (fuel + 1) room (spellString s ++ rest) = some (.str s, rest) := by
  have spelled : spellString s ++ rest = '"' :: (s.toList.flatMap spellChar ++ '"' :: rest) := by
    simp [spellString]
  simp only [spelled, readValue, skipSpaces_cons (show isSpace '"' = false from rfl),
    readString_spelled, bind, Option.bind, Option.elim]

theorem readValue_null (fuel room : Nat) (rest : List Char) :
    readValue (fuel + 1) room (spellNull ++ rest) = some (.null, rest) := by
  have spelled : spellNull ++ rest = 'n' :: ("ull".toList ++ rest) := rfl
  simp only [spelled, readValue, skipSpaces_cons (show isSpace 'n' = false from rfl)]
  exact readWord_append "null" .null rest

theorem readValue_bool (fuel room : Nat) (b : Bool) (rest : List Char) :
    readValue (fuel + 1) room (spellBool b ++ rest) = some (.bool b, rest) := by
  cases b with
  | true =>
    have spelled : spellBool true ++ rest = 't' :: ("rue".toList ++ rest) := rfl
    simp only [spelled, readValue, skipSpaces_cons (show isSpace 't' = false from rfl)]
    exact readWord_append "true" (.bool true) rest
  | false =>
    have spelled : spellBool false ++ rest = 'f' :: ("alse".toList ++ rest) := rfl
    simp only [spelled, readValue, skipSpaces_cons (show isSpace 'f' = false from rfl)]
    exact readWord_append "false" (.bool false) rest

/-! ### Arrays and objects -/

/-- A value starts with a character that is neither a blank nor a closing bracket. -/
theorem spread_start (g : Gaps) (depth : Nat) {j : Json} (numbers : j.HasNumbers ReadsBack) :
    ∃ c cs, spread g depth j = c :: cs ∧ isSpace c = false ∧ c ≠ ']' := by
  match j with
  | .null => exact ⟨'n', _, rfl, rfl, by decide⟩
  | .bool true => exact ⟨'t', _, rfl, rfl, by decide⟩
  | .bool false => exact ⟨'f', _, rfl, rfl, by decide⟩
  | .str s => exact ⟨'"', _, rfl, rfl, by decide⟩
  | .num n =>
    obtain ⟨c, cs, eq, h⟩ := numbers.start
    exact ⟨c, cs, eq, start_of_number h⟩
  | .arr items =>
    rw [spread]
    cases spreadItems g (depth + 1) items <;> exact ⟨'[', _, rfl, rfl, by decide⟩
  | .obj members =>
    rw [spread]
    cases spreadMembers g (depth + 1) members <;> exact ⟨'\x7b', _, rfl, rfl, by decide⟩

theorem ofKeyed_some (members : List (String × Document)) :
    ofKeyed (members.map fun m => (some m.1, m.2)) = .obj members := by
  have keyed : (members.map fun m => (some m.1, m.2)).mapM
      (fun m : Option String × Document => m.1.map (·, m.2)) = some members := by
    induction members with
    | nil => rfl
    | cons m rest ih =>
      rw [List.map_cons, List.mapM_cons, ih]
      rfl
  rw [ofKeyed, keyed]

/-- Entries with the line before each. -/
def entries (g : Gaps) (depth : Nat) (texts : List (List Char)) : List Char :=
  commaSeparated (texts.map (g.line depth ++ ·))

theorem entries_singleton (g : Gaps) (depth : Nat) (text : List Char) :
    entries g depth [text] = g.line depth ++ text := rfl

theorem entries_cons_cons (g : Gaps) (depth : Nat) (text next : List Char)
    (more : List (List Char)) :
    entries g depth (text :: next :: more) =
      g.line depth ++ text ++ ',' :: entries g depth (next :: more) := rfl

theorem bracket_cons (g : Gaps) (opening closing : Char) (depth : Nat) (text : List Char)
    (texts : List (List Char)) (rest : List Char) :
    g.bracket opening closing depth (text :: texts) ++ rest =
      opening :: (entries g (depth + 1) (text :: texts) ++ (g.line depth ++ closing :: rest)) := by
  simp [Gaps.bracket, entries]

theorem skipSpaces_entries (g : Gaps) (depth : Nat) {c : Char} (h : isSpace c = false)
    (cs : List Char) (texts : List (List Char)) (rest : List Char) :
    ∃ cs', skipSpaces (entries g depth ((c :: cs) :: texts) ++ rest) = c :: cs' := by
  cases texts with
  | nil =>
    rw [entries_singleton, List.append_assoc, skipSpaces_append (g.line_blank depth),
      List.cons_append, skipSpaces_cons h]
    exact ⟨_, rfl⟩
  | cons next more =>
    rw [entries_cons_cons, List.append_assoc, List.append_assoc,
      skipSpaces_append (g.line_blank depth), List.cons_append, skipSpaces_cons h]
    exact ⟨_, rfl⟩

theorem readValue_emptyArray (fuel room : Nat) (rest : List Char) :
    readValue (fuel + 1) (room + 1) ('[' :: ']' :: rest) = some (.arr [], rest) := by
  simp only [readValue, skipSpaces_cons (show isSpace '[' = false from rfl),
    skipSpaces_cons (show isSpace ']' = false from rfl)]
  rfl

theorem readValue_emptyObject (fuel room : Nat) (rest : List Char) :
    readValue (fuel + 1) (room + 1) ('\x7b' :: '\x7d' :: rest) = some (.obj [], rest) := by
  simp only [readValue, skipSpaces_cons (show isSpace '\x7b' = false from rfl),
    skipSpaces_cons (show isSpace '\x7d' = false from rfl)]
  rfl

/-- An array with items, when what follows its bracket is read as they are. -/
theorem readValue_array {fuel room : Nat} {c : Char} {cs cs' rest : List Char}
    {items : List Document} (first : skipSpaces cs = c :: cs') (ne : c ≠ ']')
    (read : readItems fuel room cs = some (items, rest)) :
    readValue (fuel + 1) (room + 1) ('[' :: cs) = some (.arr items, rest) := by
  rw [← readItems_skipSpaces, first] at read
  rw [readValue, skipSpaces_cons (show isSpace '[' = false from rfl)]
  simp only [first]
  split
  case h_1 eq => exact absurd (List.cons.inj eq).1 ne
  case h_2 =>
    simp only [Nat.add_sub_cancel, read, bind, Option.bind]
    rfl

/-- An object with members, when what follows its brace is read as they are. -/
theorem readValue_object {fuel room : Nat} {c : Char} {cs cs' rest : List Char}
    {members : List (String × Document)} (first : skipSpaces cs = c :: cs') (ne : c ≠ '\x7d')
    (read : readMembers fuel room cs = some (members.map fun m => (some m.1, m.2), rest)) :
    readValue (fuel + 1) (room + 1) ('\x7b' :: cs) = some (.obj members, rest) := by
  rw [← readMembers_skipSpaces, first] at read
  rw [readValue, skipSpaces_cons (show isSpace '\x7b' = false from rfl)]
  simp only [first]
  split
  case h_1 eq => exact absurd (List.cons.inj eq).1 ne
  case h_2 =>
    simp only [Nat.add_sub_cancel, read, bind, Option.bind, ofKeyed_some]
    rfl

mutual

/-- **Reading a value.** By induction on the value, along with its items and members. -/
theorem readValue_spread (g : Gaps) (j : Json) (fuel room depth : Nat) (rest : List Char)
    (numbers : j.HasNumbers ReadsBack) (deep : (ofJson j).height ≤ room)
    (enough : 2 * (spread g depth j).length ≤ fuel) (stops : Stops rest) :
    readValue fuel room (spread g depth j ++ rest) = some (ofJson j, rest) := by
  obtain ⟨c, cs, start, -⟩ := spread_start g depth numbers
  -- a value has a character at least, so there is fuel for the first step
  obtain ⟨fuel, rfl⟩ : ∃ n, fuel = n + 1 := ⟨fuel - 1, by
    have := congrArg List.length start
    simp only [List.length_cons] at this
    omega⟩
  match j with
  | .null => exact readValue_null fuel room rest
  | .bool b => exact readValue_bool fuel room b rest
  | .str s => exact readValue_string fuel room s rest
  | .num n =>
    obtain ⟨c, cs, eq, h⟩ := numbers.start
    have := numbers.read rest stops
    rw [eq] at this
    rw [spread, eq, List.cons_append, readValue_number fuel room h, ← List.cons_append, this, ofJson]
  | .arr [] =>
    obtain ⟨room, rfl⟩ : ∃ n, room = n + 1 := Nat.exists_eq_add_of_le' deep
    exact readValue_emptyArray fuel room rest
  | .arr (item :: items) =>
    have height : heightOfItems (ofItems (item :: items)) + 1 ≤ room := deep
    obtain ⟨room, rfl⟩ : ∃ n, room = n + 1 := ⟨room - 1, by omega⟩
    obtain ⟨c, cs, start, unspaced, ne⟩ := spread_start g (depth + 1) numbers.1
    have text : spread g depth (.arr (item :: items)) ++ rest = '[' ::
        (entries g (depth + 1) (spreadItems g (depth + 1) (item :: items)) ++
          (g.line depth ++ ']' :: rest)) := bracket_cons ..
    obtain ⟨cs', first⟩ : ∃ cs', skipSpaces (entries g (depth + 1)
        (spreadItems g (depth + 1) (item :: items)) ++ (g.line depth ++ ']' :: rest)) = c :: cs' := by
      rw [spreadItems, start]
      exact skipSpaces_entries g (depth + 1) unspaced cs _ _
    have items := readItems_spread g (item :: items) nofun fuel room (depth + 1)
      (g.line depth) rest numbers (by omega) (by
        have := congrArg List.length text
        simp only [List.length_append, List.length_cons] at this
        omega) (g.line_blank depth)
    rw [text]
    exact readValue_array first ne items
  | .obj [] =>
    obtain ⟨room, rfl⟩ : ∃ n, room = n + 1 := Nat.exists_eq_add_of_le' deep
    exact readValue_emptyObject fuel room rest
  | .obj (m :: members) =>
    have height : heightOfMembers (ofMembers (m :: members)) + 1 ≤ room := deep
    obtain ⟨room, rfl⟩ : ∃ n, room = n + 1 := ⟨room - 1, by omega⟩
    have text : spread g depth (.obj (m :: members)) ++ rest = '\x7b' ::
        (entries g (depth + 1) (spreadMembers g (depth + 1) (m :: members)) ++
          (g.line depth ++ '\x7d' :: rest)) := bracket_cons ..
    obtain ⟨cs', first⟩ : ∃ cs', skipSpaces (entries g (depth + 1)
        (spreadMembers g (depth + 1) (m :: members)) ++ (g.line depth ++ '\x7d' :: rest)) =
          '"' :: cs' := skipSpaces_entries g (depth + 1) rfl _ _ _
    have members := readMembers_spread g (m :: members) nofun fuel room (depth + 1)
      (g.line depth) rest numbers (by omega) (by
        have := congrArg List.length text
        simp only [List.length_append, List.length_cons] at this
        omega) (g.line_blank depth)
    rw [text]
    exact readValue_object first (by decide) members

/-- The items of an array that is not empty, up to its closing bracket. -/
theorem readItems_spread (g : Gaps) (items : List Json) (ne : items ≠ []) (fuel room depth : Nat)
    (blanks rest : List Char) (numbers : Json.HaveNumbers ReadsBack items)
    (deep : heightOfItems (ofItems items) ≤ room)
    (enough : 2 * (entries g depth (spreadItems g depth items)).length < fuel)
    (closing : ∀ c ∈ blanks, isSpace c = true) :
    readItems fuel room (entries g depth (spreadItems g depth items) ++ (blanks ++ ']' :: rest)) =
      some (ofItems items, rest) := by
  obtain ⟨fuel, rfl⟩ : ∃ n, fuel = n + 1 := ⟨fuel - 1, by omega⟩
  match items with
  | [] => exact absurd rfl ne
  | [item] =>
    simp only [spreadItems, entries_singleton, List.length_append] at enough ⊢
    have value := readValue_spread g item fuel room depth _ numbers.1
      ((Nat.le_max_left ..).trans deep) (by omega) (stops_append closing (c := ']') (by decide) rest)
    rw [readItems, List.append_assoc, readValue_append (g.line_blank depth), value]
    simp only [bind, Option.bind, skipSpaces_append closing,
      skipSpaces_cons (show isSpace ']' = false from rfl)]
    rfl
  | item :: next :: more =>
    simp only [spreadItems, entries_cons_cons, List.length_append, List.length_cons] at enough ⊢
    have value := readValue_spread g item fuel room depth _ numbers.1
      ((Nat.le_max_left ..).trans deep) (by omega) (stops_cons (c := ',') (by decide)
        (entries g depth (spreadItems g depth (next :: more)) ++ (blanks ++ ']' :: rest)))
    have items := readItems_spread g (next :: more) nofun fuel room depth blanks rest numbers.2
      ((Nat.le_max_right ..).trans deep) (by simp only [spreadItems]; omega) closing
    simp only [spreadItems] at value items
    rw [readItems, List.append_assoc, List.append_assoc, readValue_append (g.line_blank depth),
      List.cons_append, value]
    simp only [bind, Option.bind, skipSpaces_cons (show isSpace ',' = false from rfl), items]
    rfl

/-- The members of an object that is not empty, up to its closing brace. -/
theorem readMembers_spread (g : Gaps) (members : List (String × Json)) (ne : members ≠ [])
    (fuel room depth : Nat) (blanks rest : List Char)
    (numbers : Json.HaveNumbersInValues ReadsBack members)
    (deep : heightOfMembers (ofMembers members) ≤ room)
    (enough : 2 * (entries g depth (spreadMembers g depth members)).length < fuel)
    (closing : ∀ c ∈ blanks, isSpace c = true) :
    readMembers fuel room (entries g depth (spreadMembers g depth members) ++
      (blanks ++ '\x7d' :: rest)) = some ((ofMembers members).map fun m => (some m.1, m.2), rest) := by
  obtain ⟨fuel, rfl⟩ : ∃ n, fuel = n + 1 := ⟨fuel - 1, by omega⟩
  have member (key : String) (text more : List Char) :
      spellString key ++ ':' :: (g.colon ++ text) ++ more =
        '"' :: (key.toList.flatMap spellChar ++ '"' :: ':' :: (g.colon ++ (text ++ more))) := by
    simp [spellString]
  match members with
  | [] => exact absurd rfl ne
  | [(key, value)] =>
    simp only [spreadMembers, entries_singleton, List.length_append, List.length_cons] at enough ⊢
    have read := readValue_spread g value fuel room depth _ numbers.1
      ((Nat.le_max_left ..).trans deep) (by omega)
      (stops_append closing (c := '\x7d') (by decide) rest)
    rw [List.append_assoc, member, readMembers, skipSpaces_append (g.line_blank depth),
      skipSpaces_cons (show isSpace '"' = false from rfl)]
    simp only [readString_spelled, bind, Option.bind,
      skipSpaces_cons (show isSpace ':' = false from rfl), readValue_append g.colon_blank, read,
      skipSpaces_append closing, skipSpaces_cons (show isSpace '\x7d' = false from rfl)]
    rfl
  | (key, value) :: next :: more =>
    simp only [spreadMembers, entries_cons_cons, List.length_append, List.length_cons] at enough ⊢
    have read := readValue_spread g value fuel room depth _ numbers.1
      ((Nat.le_max_left ..).trans deep) (by omega) (stops_cons (c := ',') (by decide)
        (entries g depth (spreadMembers g depth (next :: more)) ++ (blanks ++ '\x7d' :: rest)))
    have members := readMembers_spread g (next :: more) nofun fuel room depth blanks rest numbers.2
      ((Nat.le_max_right ..).trans deep) (by simp only [spreadMembers]; omega) closing
    simp only [spreadMembers] at read members
    rw [List.append_assoc, List.append_assoc, member, readMembers,
      skipSpaces_append (g.line_blank depth), skipSpaces_cons (show isSpace '"' = false from rfl)]
    simp only [readString_spelled, bind, Option.bind,
      skipSpaces_cons (show isSpace ':' = false from rfl), readValue_append g.colon_blank,
      List.cons_append, read, skipSpaces_cons (show isSpace ',' = false from rfl), members]
    rfl

end

/-- A whole text of a value, laid out in any way. -/
theorem readChars_spread (g : Gaps) {j : Json} (numbers : j.HasNumbers ReadsBack)
    (deep : (ofJson j).height ≤ depthLimit) : readChars (spread g 0 j) = some (ofJson j) := by
  have value := readValue_spread g j (2 * (spread g 0 j).length + 2) depthLimit 0 [] numbers deep
    (by omega) nofun
  rw [List.append_nil] at value
  simp only [readChars, value, bind, Option.bind]
  rfl

/-- **Reading an indented text.** -/
theorem read_indented {j : Json} (numbers : j.HasNumbers ReadsBack)
    (deep : (ofJson j).height ≤ depthLimit) : read j.indented = some (ofJson j) := by
  rw [read, indented, String.toList_ofList, indentedChars_eq_spread, readChars_spread _ numbers deep]

end Document

/-! ### Values that texts can hold -/

namespace Json

/-- The numbers in a value read back, and at most `depth` arrays and objects lie inside one
another. -/
def Fits (depth : Nat) (j : Json) : Prop :=
  j.HasNumbers Document.ReadsBack ∧ (Document.ofJson j).height ≤ depth

theorem fits_str (depth : Nat) (s : String) : (str s).Fits depth := ⟨trivial, Nat.zero_le _⟩

theorem fits_ofNat (depth : Nat) {n : Nat} (h : n < UInt64.size) : (ofNat n).Fits depth := by
  have low : Int64.minValue.toInt ≤ 0 := by decide
  exact ⟨Document.readsBack_int (by omega) (by omega), Nat.zero_le _⟩

theorem fits_arr {depth : Nat} {items : List Json} (h : ∀ item ∈ items, item.Fits depth) :
    (arr items).Fits (depth + 1) := by
  refine ⟨haveNumbers_iff.2 fun item hi => (h item hi).1, Nat.succ_le_succ ?_⟩
  induction items with
  | nil => exact Nat.zero_le _
  | cons item rest ih =>
    exact Nat.max_le.2 ⟨(h item List.mem_cons_self).2, ih fun x hx => h x (List.mem_cons_of_mem _ hx)⟩

theorem fits_obj {depth : Nat} {members : List (String × Json)}
    (h : ∀ m ∈ members, m.2.Fits depth) : (obj members).Fits (depth + 1) := by
  refine ⟨haveNumbersInValues_iff.2 fun m hm => (h m hm).1, Nat.succ_le_succ ?_⟩
  induction members with
  | nil => exact Nat.zero_le _
  | cons m rest ih =>
    exact Nat.max_le.2 ⟨(h m List.mem_cons_self).2, ih fun x hx => h x (List.mem_cons_of_mem _ hx)⟩

theorem fits_arr_map {α : Type} {depth : Nat} {xs : List α} {f : α → Json}
    (h : ∀ x ∈ xs, (f x).Fits depth) : (arr (xs.map f)).Fits (depth + 1) :=
  fits_arr (List.forall_mem_map.2 h)

theorem fits_ofStrings (depth : Nat) (xs : List String) : (ofStrings xs).Fits (depth + 1) :=
  fits_arr_map fun s _ => fits_str depth s

/-- A value that fits is read from its indented text. -/
theorem Fits.read_indented {j : Json} (h : j.Fits Document.depthLimit) :
    Document.read j.indented = some (Document.ofJson j) := Document.read_indented h.1 h.2

end Json

end Clausal
