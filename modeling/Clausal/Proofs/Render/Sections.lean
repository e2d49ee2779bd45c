import Clausal.Proofs.Render.Blocks
import Clausal.Proofs.Render.Variables

/-!
# Sections of programs

Main statement: `Dialect.renderProgram_layout`. Facts, rules and queries make up three sections, and
those with something in them are apart by a blank line. A rule without conditions has an empty text
(`Dialect.renderRule_eq_empty_iff`), which still gets a line of its own among the rules: it can be
left out only if there is no other rule.
-/

namespace Clausal

/-! ### Lengths of joined texts -/

namespace Text

theorem length_intercalate (between : String) (texts : List String) :
    (String.intercalate between texts).length =
      (String.join texts).length + (texts.length - 1) * between.length := by
  induction texts with
  | nil => simp
  | cons t rest ih =>
    cases rest with
    | nil => simp
    | cons t' rest =>
      rw [String.intercalate_cons_cons, String.length_append, String.length_append, ih,
        String.join_cons (s := t), String.length_append]
      simp only [List.length_cons, Nat.add_sub_cancel, Nat.succ_mul]
      omega

/-- Empty texts do not count. -/
theorem join_filter (texts : List String) :
    String.join (texts.filter (· ≠ "")) = String.join texts := by
  induction texts with
  | nil => rfl
  | cons t rest ih =>
    rw [String.join_cons, ← ih, List.filter_cons]
    by_cases empty : t = "" <;> simp [empty]

theorem join_eq_empty_iff {texts : List String} :
    String.join texts = "" ↔ ∀ t ∈ texts, t = "" := by
  induction texts with
  | nil => simp
  | cons t rest ih =>
    rw [String.join_cons, ← String.length_eq_zero_iff, String.length_append, Nat.add_eq_zero_iff,
      String.length_eq_zero_iff, String.length_eq_zero_iff, ih, List.forall_mem_cons]

end Text

namespace Dialect

/-- Between neighbours there is one newline. -/
theorem length_lines (texts : List String) :
    (lines texts).length = (String.join texts).length + (texts.length - 1) := by
  rw [lines, Text.length_intercalate]
  exact congrArg _ (Nat.mul_one _)

theorem lines_eq_empty_iff {texts : List String} :
    lines texts = "" ↔ (∀ t ∈ texts, t = "") ∧ texts.length ≤ 1 := by
  rw [← String.length_eq_zero_iff, length_lines, Nat.add_eq_zero_iff, String.length_eq_zero_iff,
    Text.join_eq_empty_iff, Nat.sub_eq_zero_iff_le]

/-- Of several lines, one that is empty cannot be left out. -/
theorem length_lines_filter_lt {texts : List String} (empty : "" ∈ texts)
    (several : 1 < texts.length) :
    (lines (texts.filter (· ≠ ""))).length < (lines texts).length := by
  have fewer : (texts.filter (· ≠ "")).length < texts.length :=
    List.length_filter_lt_length_iff_exists.2 ⟨"", empty, by simp⟩
  rw [length_lines, length_lines, Text.join_filter]
  omega

/-- One more line that is empty makes a difference if there is another one. -/
theorem length_lines_insert_empty {before after : List String} (other : before ++ after ≠ []) :
    (lines (before ++ after)).length < (lines (before ++ "" :: after)).length := by
  have some := List.length_pos_iff.2 other
  rw [List.length_append] at some
  rw [length_lines, length_lines, String.join_append, String.join_append, String.join_cons,
    String.empty_append, List.length_append, List.length_append, List.length_cons]
  omega

/-! ### Sections -/

/-- Sections apart by blank lines. Those without a character are left out. -/
def sections (facts clauses goals : String) : String :=
  String.intercalate "\n\n" ([facts, clauses, goals].filter (· ≠ ""))

/-- A program grows with its section of rules. -/
theorem length_sections_lt {clauses clauses' : String} (more : clauses.length < clauses'.length)
    (facts goals : String) :
    (sections facts clauses goals).length < (sections facts clauses' goals).length := by
  have some : clauses' ≠ "" := by
    rintro rfl
    exact absurd more (Nat.not_lt_zero _)
  have count : ([facts, clauses, goals].filter (· ≠ "")).length ≤
      ([facts, clauses', goals].filter (· ≠ "")).length := by
    by_cases first : facts = "" <;> by_cases rules : clauses = "" <;>
      by_cases last : goals = "" <;> simp [some, first, rules, last]
  rw [sections, sections, Text.length_intercalate, Text.length_intercalate,
    Text.join_filter, Text.join_filter]
  have between := Nat.mul_le_mul_right "\n\n".length (Nat.sub_le_sub_right count 1)
  simp only [String.join_cons, String.length_append]
  omega

theorem sections_filter_eq_iff {facts goals : String} {texts : List String} :
    sections facts (lines (texts.filter (· ≠ ""))) goals = sections facts (lines texts) goals ↔
      "" ∉ texts ∨ texts.length ≤ 1 := by
  constructor
  · intro same
    by_contra other
    rw [not_or, not_not, not_le] at other
    have shorter := length_sections_lt (length_lines_filter_lt other.1 other.2) facts goals
    exact absurd (congrArg String.length same) shorter.ne
  · rintro (full | single)
    · have kept : texts.filter (· ≠ "") = texts :=
        List.filter_eq_self.2 fun t ht => decide_eq_true fun empty => full (empty ▸ ht)
      rw [kept]
    · match texts with
      | [] => rfl
      | [t] => by_cases empty : t = "" <;> simp [empty, lines]

theorem sections_insert_eq_iff {facts goals : String} {before after : List String} :
    sections facts (lines (before ++ "" :: after)) goals =
      sections facts (lines (before ++ after)) goals ↔ before ++ after = [] := by
  constructor
  · intro same
    by_contra other
    have shorter := length_sections_lt (length_lines_insert_empty other) facts goals
    exact absurd (congrArg String.length same) shorter.ne'
  · intro alone
    obtain ⟨rfl, rfl⟩ := List.append_eq_nil_iff.1 alone
    rfl

variable {d : Dialect} {context : RenderContext} {records : List Record} {rules : List Rule}
  {queries : List Query} {r : Rule} {text : String}

/-- Where an empty section may as well be missing, it does not matter whether it is there. -/
theorem section?_bind {α β : Type} {items : List α} {write : List α → Except RenderError String}
    (none : write [] = .ok "") {next : List String → Except RenderError β}
    (missing : next [] = next [""]) :
    (section? items write >>= next) = write items >>= fun text => next [text] := by
  cases items with
  | nil =>
    rw [none]
    exact missing
  | cons first rest =>
    rw [section?, List.isEmpty_cons, if_neg Bool.false_ne_true]
    cases write (first :: rest) <;> rfl

/-- A program is written section by section. -/
theorem renderProgram_eq (wired : d.isStub = false) :
    d.renderProgram context records rules queries = do
      let facts ← d.renderFacts context records
      let texts ← rules.mapM (d.renderRule context)
      let goals ← d.renderQueries context queries
      return sections facts (lines texts) goals := by
  have fact : d.renderFacts context [] = .ok "" := by
    rw [renderFacts, wired]
    rfl
  have goal : d.renderQueries context [] = .ok "" := by
    rw [renderQueries, wired]
    rfl
  rw [renderProgram, wired, if_neg Bool.false_ne_true, section?_bind fact rfl]
  refine bind_congr fun facts => ?_
  rw [section?_bind rfl (by simp [List.filter_cons]), bind_map_left]
  refine bind_congr fun texts => ?_
  rw [section?_bind goal (by simp [List.filter_cons])]
  rfl

/-! ### Rules without conditions -/

theorem IsBlock.exists_ne_empty {w : Writer} {index : Nat} {c : Condition} {head body : String}
    {block : List String} (h : IsBlock w r index c (clause head body) d block) :
    ∃ t ∈ block, t ≠ "" := by
  have some (opening : String) : opening ++ clause head body ≠ "" := by
    intro empty
    have length := congrArg String.length empty
    simp [clause] at length
  cases h with
  | prolog => exact ⟨_, List.mem_cons_self, some ""⟩
  | @problog p =>
    refine ⟨ annotation p ++ clause head body, ?_, some _⟩
    split <;> simp

/-- Exactly the rules without conditions have an empty text. -/
theorem renderRule_eq_empty_iff (h : d.renderRule context r = .ok text) :
    text = "" ↔ r.conditions = [] := by
  obtain ⟨head, -, block, rfl, each⟩ := blocks_of_renderRule h
  cases conditions : r.conditions with
  | nil => exact iff_of_true rfl rfl
  | cons c rest =>
    refine iff_of_false (fun empty => ?_) nofun
    obtain ⟨body, -, isBlock⟩ := each 0 c (by rw [conditions]; rfl)
    obtain ⟨t, mem, some⟩ := isBlock.exists_ne_empty
    refine some ((lines_eq_empty_iff.1 empty).1 t ?_)
    exact List.mem_flatMap.2 ⟨0, by simp, mem⟩

theorem renderRule_of_conditions_nil (wired : d.isStub = false) (none : r.conditions = [])
    {head : String} (h : (Writer.forRule context d.name d.choiceStyle r).head r.head = .ok head) :
    d.renderRule context r = .ok "" := by
  cases d with
  | prolog | problog =>
    rw [renderRule]
    simp only [h, none]
    rfl
  | cypher | datalog => cases wired

/-- The texts of the rules that have conditions. -/
def ruleTexts (rules : List Rule) (texts : List String) : List String :=
  ((rules.zip texts).filter fun p => !p.1.conditions.isEmpty).map Prod.snd

variable {texts : List String}

/-- Of the texts of rules exactly those of rules without conditions are empty. -/
theorem forall₂_empty_iff (h : rules.mapM (d.renderRule context) = .ok texts) :
    List.Forall₂ (fun r t => t = "" ↔ r.conditions = []) rules texts := by
  induction rules generalizing texts with
  | nil =>
    cases h
    exact .nil
  | cons r rest ih =>
    obtain ⟨t, others, first, later, rfl⟩ := mapM_cons_eq_ok.1 h
    exact .cons (renderRule_eq_empty_iff first) (ih later)

theorem ruleTexts_eq_filter
    (h : List.Forall₂ (fun (r : Rule) t => t = "" ↔ r.conditions = []) rules texts) :
    ruleTexts rules texts = texts.filter (· ≠ "") := by
  induction h with
  | nil => rfl
  | @cons r t rest others first _ ih =>
    rw [ruleTexts] at ih ⊢
    rw [List.zip_cons_cons, List.filter_cons, List.filter_cons, ← ih]
    by_cases none : r.conditions = [] <;> simp [none, first]

theorem empty_mem_iff
    (h : List.Forall₂ (fun (r : Rule) t => t = "" ↔ r.conditions = []) rules texts) :
    "" ∈ texts ↔ ∃ r ∈ rules, r.conditions = [] := by
  induction h with
  | nil => simp
  | cons first _ ih => rw [List.mem_cons, ih, List.exists_mem_cons_iff, ← first, eq_comm]

/-- **The layout of a program.** Its sections are those for facts, rules and queries, where each rule
has a line of its own even if it has no conditions, so that its text is empty. The empty lines can
be left out exactly if there are none, or if there is only one rule. One more rule without
conditions therefore changes the text unless it is the only one. -/
theorem renderProgram_layout (h : d.renderProgram context records rules queries = .ok text) :
    ∃ facts texts goals, d.renderFacts context records = .ok facts ∧
      rules.mapM (d.renderRule context) = .ok texts ∧
      d.renderQueries context queries = .ok goals ∧
      List.Forall₂ (fun r t => t = "" ↔ r.conditions = []) rules texts ∧
      text = sections facts (lines texts) goals ∧
      (text = sections facts (lines (ruleTexts rules texts)) goals ↔
        (∀ r ∈ rules, r.conditions ≠ []) ∨ rules.length ≤ 1) ∧
      ∀ before after r head, rules = before ++ after → r.conditions = [] →
        (Writer.forRule context d.name d.choiceStyle r).head r.head = .ok head →
        ∃ text', d.renderProgram context records (before ++ r :: after) queries = .ok text' ∧
          (text' = text ↔ rules = []) := by
  have wired : d.isStub = false := by
    cases d with
    | prolog | problog => rfl
    | cypher | datalog => cases h
  rw [renderProgram_eq wired] at h
  obtain ⟨facts, hf, h⟩ := bind_eq_ok.1 h
  obtain ⟨texts, ht, h⟩ := bind_eq_ok.1 h
  obtain ⟨goals, hg, h⟩ := bind_eq_ok.1 h
  obtain rfl := Except.ok.inj h
  have empty := forall₂_empty_iff ht
  refine ⟨facts, texts, goals, hf, ht, hg, empty, rfl, ?_, ?_⟩
  · -- an empty text is that of a rule without conditions, and is seen unless it is alone
    have full : (∀ r ∈ rules, r.conditions ≠ []) ↔ "" ∉ texts := by
      rw [empty_mem_iff empty]
      simp only [not_exists, not_and, ne_eq]
    rw [ruleTexts_eq_filter empty, full, ← length_of_mapM ht, eq_comm]
    exact sections_filter_eq_iff
  · rintro before after r head rfl none written
    rw [List.mapM_append] at ht
    obtain ⟨front, hb, ht⟩ := bind_eq_ok.1 ht
    obtain ⟨back, ha, ht⟩ := bind_eq_ok.1 ht
    obtain rfl := Except.ok.inj ht
    -- the rule adds an empty text at its place
    have more : (before ++ r :: after).mapM (d.renderRule context) = .ok (front ++ "" :: back) := by
      refine mapM_append_eq_ok hb (mapM_cons_eq_ok.2 ⟨"", back, ?_, ha, rfl⟩)
      exact renderRule_of_conditions_nil wired none written
    refine ⟨sections facts (lines (front ++ "" :: back)) goals, ?_, ?_⟩
    · rw [renderProgram_eq wired, hf, more, hg]
      rfl
    · -- one more empty text is one more newline, unless there is no other text
      have count : (front ++ back).length = (before ++ after).length := by
        rw [List.length_append, List.length_append, length_of_mapM hb, length_of_mapM ha]
      rw [sections_insert_eq_iff, ← List.length_eq_zero_iff, count, List.length_eq_zero_iff]

end Dialect

/-! ### A rule that derives nothing -/

/-- Everyone is a person. -/
def Rule.everyone : Rule := ⟨.fact .person, [⟨[], none⟩], .none⟩

/-- No one is a person on account of this rule. -/
def Rule.baseless : Rule := ⟨.fact .person, [], .none⟩

namespace Dialect

theorem renderProgram_everyone : prolog.renderProgram .empty [] [.everyone] [] =
    .ok "person(Number, Weight) :- true." := by
  decide +kernel

theorem head_baseless : (Writer.forRule .empty prolog.name prolog.choiceStyle .baseless).head
    Rule.baseless.head = .ok "person(Number, Weight)" := by
  decide +kernel

/-- A rule in front that derives nothing makes the text another one. -/
theorem renderProgram_layout_baseless :
    prolog.renderProgram .empty [] [.everyone] [] = .ok "person(Number, Weight) :- true." ∧
    Rule.baseless.conditions = [] ∧
    (Writer.forRule .empty prolog.name prolog.choiceStyle .baseless).head Rule.baseless.head =
      .ok "person(Number, Weight)" ∧
    ∃ text, prolog.renderProgram .empty [] [.baseless, .everyone] [] = .ok text ∧
      text ≠ "person(Number, Weight) :- true." := by
  obtain ⟨-, -, -, -, -, -, -, -, -, more⟩ := renderProgram_layout renderProgram_everyone
  obtain ⟨text, written, same⟩ := more [] [.everyone] .baseless _ rfl rfl head_baseless
  refine ⟨renderProgram_everyone, rfl, head_baseless, text, written, fun eq => ?_⟩
  exact absurd (same.1 eq) (List.cons_ne_nil _ _)

/-- At the end it leaves a newline behind. On its own it leaves nothing, but a second one of its
kind makes a section of the two. -/
theorem renderProgram_newline : Rule.baseless.conditions = [] ∧
    (Writer.forRule .empty prolog.name prolog.choiceStyle .baseless).head Rule.baseless.head =
      .ok "person(Number, Weight)" ∧
    prolog.renderProgram .empty [] [.everyone] [] = .ok "person(Number, Weight) :- true." ∧
    prolog.renderProgram .empty [] [.everyone, .baseless] [] =
      .ok "person(Number, Weight) :- true.\n" ∧
    prolog.renderProgram .empty [] [.baseless] [] = .ok "" ∧
    prolog.renderProgram .empty [] [.baseless, .baseless] [] = .ok "\n" := by
  refine ⟨rfl, head_baseless, renderProgram_everyone, ?_⟩
  decide +kernel

end Dialect

end Clausal
