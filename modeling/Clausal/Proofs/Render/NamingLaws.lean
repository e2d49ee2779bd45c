import Clausal.Proofs.Maps
import Clausal.Proofs.Render.Naming

/-!
# What naming gives

Main statement: `Namer.lawful`. A name that is repaired becomes a variable, whatever it is
(`Namer.isVariable_sanitize`), and variables are not changed unless a prefix is put in front of them
(`Namer.transform_of_isVariable`). What is kept for the names of a clause is known from the names
one by one (`Namer.get?_renderAll`).
-/

namespace Clausal

namespace Namer

variable {n : Namer}

/-! ### Repaired names -/

/-- A letter or an underscore, once it is a capital, can stand first in a variable. -/
theorem isVariable_capitalize {c : Char} {rest : List Char} (h : isVariableChar c = true)
    (letter : c.isDigit = false) (others : ∀ d ∈ rest, isVariableChar d = true) :
    isVariable (capitalize (c :: rest)) = true := by
  have first : (c.toUpper.isUpper || c.toUpper = '_') = true :=
    Text.char_below (P := fun c => isVariableChar c = true → c.isDigit = false →
      (c.toUpper.isUpper || c.toUpper = '_') = true) (by decide) c (toNat_of_isVariableChar h) h
      letter
  exact Bool.and_eq_true_iff.2 ⟨first, List.all_eq_true.2 others⟩

/-- Whatever a name is, once it is repaired it is a variable. -/
theorem isVariable_sanitize (cs : List Char) : isVariable (sanitize cs) = true := by
  have kept : ∀ d ∈ (Text.trimChars cs).map (fun c => if isVariableChar c then c else '_'),
      isVariableChar d = true := by
    intro d hd
    obtain ⟨c, -, rfl⟩ := List.mem_map.1 hd
    split
    case isTrue valid => exact valid
    case isFalse => rfl
  unfold sanitize
  split
  case h_1 =>
    -- nothing is left of a blank name, which becomes an underscore
    rfl
  case h_2 c rest repaired =>
    rw [repaired] at kept
    split
    case isTrue =>
      have others : ∀ d ∈ '_' :: c :: rest, isVariableChar d = true :=
        List.forall_mem_cons.2 ⟨rfl, kept⟩
      rw [isVariable, List.all_eq_true.2 others]
      rfl
    case isFalse letter =>
      obtain ⟨first, others⟩ := List.forall_mem_cons.1 kept
      exact isVariable_capitalize first (Bool.eq_false_iff.2 letter) others

theorem exists_render_of_repaired (mode : n.mode = .sanitize) (name : String) :
    ∃ v, n.render name = .ok v := by
  refine ⟨n.spelling name, render_eq_ok_iff.2 ⟨rfl, ?_⟩⟩
  rw [toList_spelling, transform, mode]
  exact isVariable_sanitize name.toList

/-! ### Variables as names -/

/-- What stands first in a variable is a capital already, and no digit. -/
theorem toUpper_of_isVariable {c : Char} {rest : List Char} (h : isVariable (c :: rest) = true) :
    c.toUpper = c ∧ c.isDigit = false := by
  have below : c.toNat < 123 :=
    toNat_of_isVariableChar (Piece.isVariableChar_of_isVariable h c List.mem_cons_self)
  exact Text.char_below (P := fun c => (c.isUpper || c = '_') = true →
    c.toUpper = c ∧ c.isDigit = false) (by decide) c below (Bool.and_eq_true_iff.1 h).1

theorem capitalize_of_isVariable {cs : List Char} (h : isVariable cs = true) :
    capitalize cs = cs := by
  cases cs with
  | nil => rfl
  | cons c rest => rw [capitalize, (toUpper_of_isVariable h).1]

theorem sanitize_of_isVariable {cs : List Char} (h : isVariable cs = true) : sanitize cs = cs := by
  have chars := Piece.isVariableChar_of_isVariable h
  have trimmed : Text.trimChars cs = cs :=
    Text.trimChars_of_forall fun c hc => isBlank_of_isVariableChar (chars c hc)
  rw [sanitize, trimmed, map_repair_of_forall chars]
  cases cs with
  | nil => cases h
  | cons c rest =>
    dsimp only
    rw [(toUpper_of_isVariable h).2]
    exact capitalize_of_isVariable h

/-- Variables are left as they are unless a prefix is put in front of them. -/
theorem transform_of_isVariable (mode : n.mode ≠ .prefixed) {cs : List Char}
    (h : isVariable cs = true) : n.transform cs = cs := by
  rw [transform]
  split
  case h_1 => rfl
  case h_2 => exact sanitize_of_isVariable h
  case h_3 behind => exact absurd behind mode
  case h_4 => exact capitalize_of_isVariable h

theorem render_of_isVariable (mode : n.mode ≠ .prefixed) {v : String}
    (h : isVariable v.toList = true) : n.render v = .ok v := by
  rw [render_eq_ok_iff, spelling, transform_of_isVariable mode h]
  exact ⟨String.ofList_toList, h⟩

/-! ### All the names of a clause -/

theorem mem_keys_renderAll {names : List String} {kept : SortedMap String String}
    (h : n.renderAll names = .ok kept) {v : String} :
    v ∈ kept.keys ↔ ∃ a ∈ names, n.render a = .ok v := by
  rw [SortedMap.mem_keys_iff, SortedMap.contains, Option.isSome_iff_exists]
  exact exists_congr fun a => get?_renderAll h

/-- **A namer gives variables.** What a name becomes is a variable; when names are repaired, each
one becomes one. Variables are left as they are unless a prefix is put in front of them, and so
naming what has been named changes nothing more. Names that are not changed, or only get a prefix,
do not become the same. The names of a clause get through exactly when each of them does and no
two of them become the same, and then their variables are kept, each for the one name that becomes
it. -/
theorem lawful (n : Namer) :
    (∀ name v, n.render name = .ok v → isVariable v.toList = true) ∧
    (n.mode = .sanitize → ∀ name, ∃ v, n.render name = .ok v) ∧
    (n.mode ≠ .prefixed →
      (∀ name, isVariable name.toList = true → n.render name = .ok name) ∧
        ∀ name v, n.render name = .ok v → n.render v = .ok v) ∧
    (n.mode = .error ∨ n.mode = .prefixed →
      ∀ a b v, n.render a = .ok v → n.render b = .ok v → a = b) ∧
    ∀ names, ((∃ kept, n.renderAll names = .ok kept) ↔ n.Separates names) ∧
      ∀ kept, n.renderAll names = .ok kept →
        (∀ v, v ∈ kept.keys ↔ ∃ a ∈ names, n.render a = .ok v) ∧
          ∀ v a, kept.get? v = some a ↔ a ∈ names ∧ n.render a = .ok v := by
  refine ⟨fun _ _ => isVariable_of_render, exists_render_of_repaired, fun mode => ⟨?_, ?_⟩,
    fun mode a b v ha hb => ?_, fun names => ⟨exists_renderAll_iff, fun kept h => ⟨?_, ?_⟩⟩⟩
  · exact fun _ => render_of_isVariable mode
  · exact fun _ _ h => render_of_isVariable mode (isVariable_of_render h)
  · refine spelling_injective mode ?_
    rw [spelling_of_render ha, spelling_of_render hb]
  · exact fun _ => mem_keys_renderAll h
  · exact fun _ _ => get?_renderAll h

/-- A name that comes twice and one with a digit in front get through, and naming them again changes
nothing; two names that become the same do not get through. Behind a prefix no names become the
same. -/
theorem lawful_firstName :
    (∃ kept, renderAll ⟨.sanitize, "V_"⟩ ["first name", "2nd", "first name"] = .ok kept ∧
      kept.get? "First_name" = some "first name" ∧ kept.get? "V_2nd" = some "2nd") ∧
    render ⟨.sanitize, "V_"⟩ "First_name" = .ok "First_name" ∧
    (¬ ∃ kept, renderAll ⟨.sanitize, "V_"⟩ ["first name", "first_name"] = .ok kept) ∧
    ∀ a, render ⟨.prefixed, "V_"⟩ a = .ok "V_x" → a = "x" := by
  obtain ⟨-, -, kept, -, all⟩ := lawful ⟨.sanitize, "V_"⟩
  obtain ⟨-, -, -, apart, -⟩ := lawful ⟨.prefixed, "V_"⟩
  have first : render ⟨.sanitize, "V_"⟩ "first name" = .ok "First_name" := by decide +kernel
  have other : render ⟨.sanitize, "V_"⟩ "first_name" = .ok "First_name" := by decide +kernel
  have second : render ⟨.sanitize, "V_"⟩ "2nd" = .ok "V_2nd" := by decide +kernel
  refine ⟨?_, (kept nofun).2 _ _ first, fun through => ?_, fun a h => ?_⟩
  · refine ⟨_, rfl, ?_⟩
    obtain ⟨-, found⟩ := (all ["first name", "2nd", "first name"]).2 _ rfl
    exact ⟨(found _ _).2 ⟨by decide, first⟩, (found _ _).2 ⟨by decide, second⟩⟩
  · have separated := ((all _).1.1 through).apart "first name" (by decide) "first_name" (by decide)
    exact separated (by decide) (first.trans other.symm)
  · exact apart (.inr rfl) a "x" "V_x" h (by decide +kernel)

end Namer

end Clausal
