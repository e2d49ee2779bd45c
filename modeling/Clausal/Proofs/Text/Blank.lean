import Mathlib.Data.List.DropRight
import Clausal.Value

/-!
# Normal forms of texts

Cutting blanks off and making capitals small change nothing when they are done again
(`trim_trim`, `normalize_normalize`). For both in turn this needs that a small letter is no blank.
-/

namespace Clausal

namespace Text

/-- What holds of the first characters one by one holds of all characters below a bound. -/
theorem char_below {bound : Nat} {P : Char → Prop} (h : ∀ n < bound, P (Char.ofNat n)) (c : Char)
    (below : c.toNat < bound) : P c := by
  have := h c.toNat below
  rwa [Char.ofNat_toNat] at this

/-! ### Blanks at the ends -/

theorem trimChars_eq (cs : List Char) : trimChars cs = (cs.dropWhile isBlank).rdropWhile isBlank :=
  rfl

theorem not_isBlank_getElem_zero {cs : List Char} (h : 0 < (trimChars cs).length) :
    ¬ isBlank ((trimChars cs)[0]) := by
  rw [trimChars_eq] at h
  simp only [trimChars_eq]
  have cut := List.rdropWhile_prefix isBlank (cs.dropWhile isBlank)
  rw [cut.getElem h]
  exact List.dropWhile_get_zero_not _ _ (h.trans_le cut.length_le)

theorem trimChars_trimChars (cs : List Char) : trimChars (trimChars cs) = trimChars cs := by
  rw [trimChars_eq (trimChars cs), List.dropWhile_eq_self_iff.2 not_isBlank_getElem_zero,
    trimChars_eq, List.rdropWhile_idempotent]

theorem trim_trim (s : String) : trim (trim s) = trim s := by
  rw [trim, trim, String.toList_ofList, trimChars_trimChars]

theorem trimChars_eq_self_iff {cs : List Char} :
    trimChars cs = cs ↔ cs.dropWhile isBlank = cs ∧ cs.rdropWhile isBlank = cs := by
  constructor
  · intro trimmed
    have start : cs.dropWhile isBlank = cs := by
      rw [← trimmed]
      exact List.dropWhile_eq_self_iff.2 not_isBlank_getElem_zero
    refine ⟨start, ?_⟩
    rwa [trimChars_eq, start] at trimmed
  · rintro ⟨start, stop⟩
    rw [trimChars_eq, start, stop]

/-- Where two texts without blanks at their ends meet, nothing is cut off. -/
theorem trimChars_append {cs ds : List Char} (hc : trimChars cs = cs) (hd : trimChars ds = ds)
    (nc : cs ≠ []) (nd : ds ≠ []) : trimChars (cs ++ ds) = cs ++ ds := by
  obtain ⟨start, -⟩ := trimChars_eq_self_iff.1 hc
  obtain ⟨-, stop⟩ := trimChars_eq_self_iff.1 hd
  rw [List.dropWhile_eq_self_iff] at start
  rw [List.rdropWhile_eq_self_iff] at stop
  rw [trimChars_eq_self_iff, List.dropWhile_eq_self_iff, List.rdropWhile_eq_self_iff]
  constructor
  · intro _
    rw [List.getElem_append_left (List.length_pos_iff.2 nc)]
    exact start _
  · intro _
    rw [List.getLast_append_of_ne_nil _ nd]
    exact stop nd

theorem toList_of_trim {s : String} (h : trim s = s) : trimChars s.toList = s.toList := by
  have := congrArg String.toList h
  rwa [trim, String.toList_ofList] at this

theorem trim_append {s t : String} (hs : trim s = s) (ht : trim t = t) (ns : s ≠ "") (nt : t ≠ "") :
    trim (s ++ t) = s ++ t := by
  have characters {u : String} (nu : u ≠ "") : u.toList ≠ [] := fun none =>
    nu (String.toList_eq_nil_iff.1 none)
  rw [trim, String.toList_append, trimChars_append (toList_of_trim hs) (toList_of_trim ht)
    (characters ns) (characters nt), ← String.toList_append, String.ofList_toList]

/-- It does not matter at which end blanks are cut off first. -/
theorem dropWhile_rdropWhile (cs : List Char) :
    (cs.rdropWhile isBlank).dropWhile isBlank = (cs.dropWhile isBlank).rdropWhile isBlank := by
  induction cs using List.reverseRecOn with
  | nil => rfl
  | append_singleton cs c ih =>
    by_cases blank : isBlank c = true
    · rw [List.rdropWhile_concat_pos _ _ _ blank, ih, List.dropWhile_append]
      split
      case isTrue none => rw [List.isEmpty_iff.1 none, List.dropWhile_cons_of_pos blank]; rfl
      case isFalse => rw [List.rdropWhile_concat_pos _ _ _ blank]
    · rw [List.rdropWhile_concat_neg _ _ _ blank, List.dropWhile_append]
      split
      case isTrue => rw [List.dropWhile_cons_of_neg blank, ← List.nil_append [c],
        List.rdropWhile_concat_neg _ _ _ blank]
      case isFalse => rw [List.rdropWhile_concat_neg _ _ _ blank]

theorem trimChars_rdropWhile (cs : List Char) : trimChars (cs.rdropWhile isBlank) = trimChars cs := by
  rw [trimChars_eq, dropWhile_rdropWhile, List.rdropWhile_idempotent, trimChars_eq]

/-- Around a mark that is no blank, blanks are cut off on the outer sides only. -/
theorem trimChars_around {mark : Char} (solid : isBlank mark = false) {cs : List Char}
    (trimmed : trimChars cs = cs) (named : cs ≠ []) (ds : List Char) :
    trimChars (cs ++ mark :: ds) = cs ++ mark :: ds.rdropWhile isBlank := by
  have start : (cs ++ mark :: ds).dropWhile isBlank = cs ++ mark :: ds := by
    obtain ⟨c, rest, rfl⟩ := List.exists_cons_of_ne_nil named
    have first : ¬ isBlank c = true :=
      List.dropWhile_eq_self_iff.1 (trimChars_eq_self_iff.1 trimmed).1 (Nat.succ_pos _)
    rw [List.cons_append, List.dropWhile_cons_of_neg first]
  have stop : ¬ isBlank mark = true := by rw [solid]; exact Bool.false_ne_true
  rw [trimChars_eq, start, List.rdropWhile, List.rdropWhile, List.reverse_append, List.reverse_cons,
    List.append_assoc, List.singleton_append, List.dropWhile_append]
  split
  case isTrue none =>
    rw [List.isEmpty_iff.1 none, List.dropWhile_cons_of_neg stop, List.reverse_cons,
      List.reverse_reverse, List.reverse_nil]
  case isFalse =>
    rw [List.reverse_append, List.reverse_cons, List.reverse_reverse, List.append_assoc,
      List.singleton_append]

/-- Where there are no blanks, none are cut off. -/
theorem trimChars_of_forall {cs : List Char} (h : ∀ c ∈ cs, isBlank c = false) :
    trimChars cs = cs := by
  have keep (cs : List Char) (h : ∀ c ∈ cs, isBlank c = false) : cs.dropWhile isBlank = cs := by
    cases cs with
    | nil => rfl
    | cons c rest => rw [List.dropWhile_cons_of_neg (by simp [h c])]
  rw [trimChars, keep _ h, keep _ fun c hc => h c (List.mem_reverse.1 hc), List.reverse_reverse]

theorem trim_of_forall {s : String} (h : ∀ c ∈ s.toList, isBlank c = false) : trim s = s := by
  rw [trim, trimChars_of_forall h, String.ofList_toList]

theorem isBlank_of_isDigit {c : Char} (h : c.isDigit = true) : isBlank c = false := by
  have below : c.toNat < 58 := Nat.lt_succ_of_le (of_decide_eq_true (Bool.and_eq_true_iff.1 h).2)
  refine char_below (P := fun c => c.isDigit = true → isBlank c = false) ?_ c below h
  decide

theorem isBlank_of_mem_decimal {n : Nat} {c : Char} (h : c ∈ (decimal n).toList) :
    isBlank c = false := by
  rw [decimal, String.toList_ofList] at h
  exact isBlank_of_isDigit (Nat.isDigit_of_mem_toDigits (by decide) (by decide) h)

/-! ### Capitals -/

/-- Only capitals change, and those are few. -/
theorem toLower_cases (c : Char) : c.toLower = c ∨ c.toNat < 91 := by
  unfold Char.toLower
  split
  case isTrue capital => exact .inr (Nat.lt_succ_of_le capital.2)
  case isFalse => exact .inl rfl

/-- Only small letters change, and those are few. -/
theorem toUpper_cases (c : Char) : c.toUpper = c ∨ c.toNat < 123 := by
  unfold Char.toUpper
  split
  case isTrue small => exact .inr (Nat.lt_succ_of_le small.2)
  case isFalse => exact .inl rfl

theorem toUpper_eq_underscore {c : Char} : c.toUpper = '_' ↔ c = '_' := by
  rcases toUpper_cases c with same | below
  · rw [same]
  · exact char_below (P := fun c => c.toUpper = '_' ↔ c = '_') (by decide) c below

theorem isBlank_toLower (c : Char) : isBlank c.toLower = isBlank c := by
  rcases toLower_cases c with same | below
  · rw [same]
  · exact char_below (P := fun c => isBlank c.toLower = isBlank c) (by decide) c below

theorem toLower_toLower (c : Char) : c.toLower.toLower = c.toLower := by
  rcases toLower_cases c with same | below
  · rw [same, same]
  · exact char_below (P := fun c => c.toLower.toLower = c.toLower) (by decide) c below

theorem trim_lower (s : String) : trim (lower s) = lower (trim s) := by
  have blank : isBlank ∘ Char.toLower = isBlank := funext isBlank_toLower
  simp only [trim, lower, trimChars, String.toList_ofList, List.dropWhile_map, ← List.map_reverse,
    blank]

theorem lower_lower (s : String) : lower (lower s) = lower s := by
  have twice : Char.toLower ∘ Char.toLower = Char.toLower := funext toLower_toLower
  simp only [lower, String.toList_ofList, List.map_map, twice]

end Text

namespace Datatype

theorem normalize_normalize (datatype : String) :
    normalize (normalize datatype) = normalize datatype := by
  rw [normalize, normalize, Text.trim_lower, Text.trim_trim, Text.lower_lower]

end Datatype

end Clausal
