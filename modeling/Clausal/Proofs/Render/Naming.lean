import Clausal.Proofs.Render.Variables
import Clausal.Proofs.Text.Blank

/-!
# Which variables names become

Main statement: `Namer.anonymous_iff`. What a name becomes is known before it is checked
(`Namer.spelling`), and so are the names that become the anonymous variable (`Namer.Hides`).
-/

namespace Clausal

/-! ### Characters of variables -/

theorem toNat_of_isVariableChar {c : Char} (h : isVariableChar c = true) : c.toNat < 123 := by
  rcases Bool.or_eq_true_iff.1 h with letter | underscore
  · rcases Bool.or_eq_true_iff.1 letter with alpha | digit
    · rcases Bool.or_eq_true_iff.1 alpha with upper | lower
      · have capital : c.toNat ≤ 90 := (of_decide_eq_true upper).2
        omega
      · have small : c.toNat ≤ 122 := of_decide_eq_true (Bool.and_eq_true_iff.1 lower).2
        omega
    · have digit : c.toNat ≤ 57 := of_decide_eq_true (Bool.and_eq_true_iff.1 digit).2
      omega
  · rw [decide_eq_true_eq] at underscore
    rw [underscore]
    decide

theorem isBlank_of_isVariableChar {c : Char} (h : isVariableChar c = true) :
    Text.isBlank c = false :=
  Text.char_below (P := fun c => isVariableChar c = true → Text.isBlank c = false) (by decide) c
    (toNat_of_isVariableChar h) h

/-- Characters that variables may have are not replaced. -/
theorem map_repair_of_forall {cs : List Char} (h : ∀ c ∈ cs, isVariableChar c = true) :
    cs.map (fun c => if isVariableChar c then c else '_') = cs := by
  rw [List.map_congr_left fun c hc => if_pos (h c hc)]
  exact List.map_id _

namespace Namer

/-- The variable that a name becomes, if it becomes one. -/
def spelling (n : Namer) (name : String) : String := String.ofList (n.transform name.toList)

theorem toList_spelling (n : Namer) (name : String) :
    (n.spelling name).toList = n.transform name.toList := String.toList_ofList

theorem render_eq_ok_iff {n : Namer} {name v : String} :
    n.render name = .ok v ↔ n.spelling name = v ∧ isVariable v.toList = true := by
  unfold render
  dsimp only
  split
  case isTrue valid =>
    rw [Except.ok.injEq]
    refine ⟨?_, And.left⟩
    rintro rfl
    exact ⟨rfl, (congrArg isVariable (n.toList_spelling name)).trans valid⟩
  case isFalse invalid =>
    refine ⟨nofun, ?_⟩
    rintro ⟨rfl, valid⟩
    rw [toList_spelling] at valid
    exact absurd valid invalid

theorem spelling_of_render {n : Namer} {name v : String} (h : n.render name = .ok v) :
    n.spelling name = v := (render_eq_ok_iff.1 h).1

/-- Names that are not changed, or only get a prefix, do not become the same. -/
theorem spelling_injective {n : Namer} (mode : n.mode = .error ∨ n.mode = .prefixed) :
    Function.Injective n.spelling := by
  intro a b same
  rw [spelling, spelling, String.ofList_inj, transform, transform] at same
  rcases mode with mode | mode
  · rw [mode] at same
    exact String.toList_inj.1 same
  · rw [mode] at same
    exact String.toList_inj.1 (List.append_cancel_left same)

/-- Names that get through become the variables that are known before. -/
theorem mapM_render {n : Namer} {names vs : List String} (h : names.mapM n.render = .ok vs) :
    vs = names.map n.spelling := by
  induction names generalizing vs with
  | nil =>
    cases h
    rfl
  | cons name rest ih =>
    obtain ⟨v, others, first, later, rfl⟩ := mapM_cons_eq_ok.1 h
    rw [List.map_cons, spelling_of_render first, ih later]

/-! ### The anonymous variable -/

/-- The names that become the anonymous variable, which is another variable wherever it stands. -/
def Hides (n : Namer) (name : String) : Prop :=
  match n.mode with
  | .error | .capitalize => name = "_"
  | .sanitize => ∃ c, Text.trimChars name.toList = [c] ∧ c.isAlphanum = false
  | .prefixed => n.varPrefix ++ name = "_"

theorem capitalize_eq_underscore_iff {cs : List Char} : capitalize cs = ['_'] ↔ cs = ['_'] := by
  cases cs with
  | nil => exact ⟨nofun, nofun⟩
  | cons c rest => rw [capitalize, List.cons.injEq, List.cons.injEq, Text.toUpper_eq_underscore]

/-- A character that is no letter and no digit is an underscore or is replaced by one. -/
theorem repaired_eq_underscore_iff {c : Char} :
    (if isVariableChar c then c else '_') = '_' ↔ c.isAlphanum = false := by
  cases letter : c.isAlphanum with
  | true =>
    have kept : isVariableChar c = true := Bool.or_eq_true_iff.2 (.inl letter)
    rw [if_pos kept]
    refine ⟨?_, nofun⟩
    rintro rfl
    exact absurd letter (by decide)
  | false => simp [isVariableChar, letter]

theorem sanitize_eq_underscore_iff {cs : List Char} :
    sanitize cs = ['_'] ↔ ∃ c, Text.trimChars cs = [c] ∧ c.isAlphanum = false := by
  -- what is put in front of a digit or in place of nothing is no underscore
  have alone : sanitize cs = ['_'] ↔
      (Text.trimChars cs).map (fun c => if isVariableChar c then c else '_') = ['_'] := by
    unfold sanitize
    split
    case h_1 nothing =>
      rw [nothing]
      exact ⟨nofun, nofun⟩
    case h_2 c rest repaired =>
      rw [repaired]
      split
      case isTrue digit =>
        refine ⟨nofun, fun same => ?_⟩
        rw [List.head_eq_of_cons_eq same] at digit
        exact absurd digit (by decide)
      case isFalse => exact capitalize_eq_underscore_iff
  rw [alone, List.map_eq_singleton_iff]
  exact exists_congr fun c => and_congr_right fun _ => repaired_eq_underscore_iff

theorem toList_eq_underscore_iff {s : String} : s.toList = ['_'] ↔ s = "_" :=
  (String.toList_inj : s.toList = "_".toList ↔ s = "_")

theorem ofList_eq_underscore_iff {cs : List Char} : String.ofList cs = "_" ↔ cs = ['_'] := by
  rw [← toList_eq_underscore_iff, String.toList_ofList]

/-- **The names that become the anonymous variable**: the underscore itself in two of the modes, any
single character that has to be replaced in another, and what a prefix makes an underscore. -/
theorem anonymous_iff {n : Namer} {name : String} : n.spelling name = "_" ↔ n.Hides name := by
  rw [spelling, ofList_eq_underscore_iff]
  obtain ⟨mode, pre⟩ := n
  cases mode with
  | error => exact toList_eq_underscore_iff
  | sanitize => exact sanitize_eq_underscore_iff
  | prefixed =>
    rw [transform, ← String.toList_append]
    exact toList_eq_underscore_iff
  | capitalize => exact capitalize_eq_underscore_iff.trans toList_eq_underscore_iff

end Namer

end Clausal
