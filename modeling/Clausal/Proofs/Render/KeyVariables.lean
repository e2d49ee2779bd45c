import Clausal.Proofs.Render.Endpoints
import Clausal.Proofs.Schema.Sides

/-!
# Which key variables a binding looks for

Main statements: `Writer.body_of_keyFields`, `Writer.keyVars_of_body`. A binding looks for the key
variables of a side under names of its own (`Side.keyName`), which are not those of the signature.
Repaired or with a capital they become the same variables, and behind a prefix they do not; when
names are repaired, different key fields may have one variable.
-/

namespace Clausal

namespace Namer

/-- A name after other characters as it is repaired: blanks at the end are cut off, and characters
that a variable cannot have are replaced. -/
def repaired (field : String) : List Char :=
  (field.toList.rdropWhile Text.isBlank).map fun c => if isVariableChar c then c else '_'

/-- Behind a word, a name is repaired on its own. -/
theorem sanitize_behind {c : Char} {cs : List Char} (trimmed : Text.trimChars (c :: cs) = c :: cs)
    (kept : (c :: cs).all isVariableChar = true) (letter : c.isDigit = false) (field : String) :
    sanitize (c :: cs ++ '_' :: field.toList) = capitalize (c :: cs) ++ '_' :: repaired field := by
  have solid : Text.isBlank '_' = false := by decide
  have cut := Text.trimChars_around solid trimmed (List.cons_ne_nil c cs) field.toList
  have word : (c :: cs).map (fun c => if isVariableChar c then c else '_') = c :: cs :=
    map_repair_of_forall (List.all_eq_true.1 kept)
  have whole : (Text.trimChars (c :: cs ++ '_' :: field.toList)).map
      (fun c => if isVariableChar c then c else '_') = c :: (cs ++ '_' :: repaired field) := by
    rw [cut, List.map_append, word]
    rfl
  rw [sanitize, whole]
  dsimp only
  rw [letter]
  rfl

variable {n : Namer} {side : Side} {k : String}

theorem sanitize_headVar (side : Side) (k : String) :
    sanitize (side.headVar.toList ++ '_' :: k.toList) =
      side.headVar.toList ++ '_' :: repaired k := by
  cases side <;> exact sanitize_behind (by decide) rfl rfl k

theorem sanitize_text (side : Side) (k : String) :
    sanitize (side.text.toList ++ '_' :: k.toList) =
      side.headVar.toList ++ '_' :: repaired k := by
  cases side <;> exact sanitize_behind (by decide) rfl rfl k

theorem toList_keyName (side : Side) (k : String) :
    (side.keyName k).toList = side.headVar.toList ++ '_' :: k.toList := by
  rw [Side.keyName, String.toList_append, String.toList_append, List.append_assoc]
  rfl

theorem toList_start (side : Side) (k : String) :
    (side.start ++ k).toList = side.text.toList ++ '_' :: k.toList := by
  rw [String.toList_append]
  cases side <;> rfl

/-- The key variable of a side for a field. -/
theorem spelling_keyName (n : Namer) (side : Side) (k : String) : n.spelling (side.keyName k) =
    match n.mode with
    | .error | .capitalize => side.keyName k
    | .prefixed => n.varPrefix ++ side.keyName k
    | .sanitize => String.ofList (side.headVar.toList ++ '_' :: repaired k) := by
  obtain ⟨mode, varPrefix⟩ := n
  cases mode with
  | error => exact String.ofList_toList
  | sanitize => rw [spelling, transform, toList_keyName, sanitize_headVar]
  | prefixed =>
    rw [spelling, transform, ← String.toList_append]
    exact String.ofList_toList
  | capitalize =>
    have capital : capitalize (side.keyName k).toList = (side.keyName k).toList := by
      rw [toList_keyName]
      cases side <;> rfl
    rw [spelling, transform, capital]
    exact String.ofList_toList

/-- In two of the modes the name of a key field in the signature becomes the key variable. -/
theorem spelling_start (mode : n.mode = .sanitize ∨ n.mode = .capitalize) (side : Side)
    (k : String) : n.spelling (side.start ++ k) = n.spelling (side.keyName k) := by
  rw [spelling_keyName, spelling, transform, toList_start]
  rcases mode with mode | mode <;> rw [mode] <;> dsimp only
  · rw [sanitize_text]
  · rw [← String.ofList_toList (s := side.keyName k), toList_keyName]
    cases side <;> rfl

/-- It makes no difference behind a prefix whether a letter is small. -/
theorem isVariable_capital {cs ds : List Char} {small capital : Char}
    (kept : isVariableChar small = isVariableChar capital)
    (first : isVariable (small :: ds) = false) (h : isVariable (cs ++ small :: ds) = true) :
    isVariable (cs ++ capital :: ds) = true := by
  cases cs with
  | nil => exact absurd h (by rw [List.nil_append, first]; exact Bool.false_ne_true)
  | cons c rest =>
    rw [List.cons_append, isVariable, List.all_append, List.all_cons] at h ⊢
    rwa [← kept]

/-- As it is, the name of a key field in the signature is no variable. -/
theorem mode_of_render_start {v : String} (h : n.render (side.start ++ k) = .ok v) :
    n.mode = .prefixed ∨ n.mode = .sanitize ∨ n.mode = .capitalize := by
  obtain ⟨rfl, valid⟩ := render_eq_ok_iff.1 h
  rw [toList_spelling, transform, toList_start] at valid
  cases mode : n.mode with
  | error =>
    rw [mode] at valid
    cases side <;> cases valid
  | sanitize => exact .inr (.inl rfl)
  | prefixed => exact .inl rfl
  | capitalize => exact .inr (.inr rfl)

/-- Where the name of a key field in the signature becomes a variable, so does the name of the key
variable. -/
theorem exists_render_keyName {v : String} (h : n.render (side.start ++ k) = .ok v) :
    ∃ v, n.render (side.keyName k) = .ok v := by
  refine ⟨n.spelling (side.keyName k), ?_⟩
  obtain ⟨rfl, valid⟩ := render_eq_ok_iff.1 h
  rcases mode_of_render_start h with mode | mode
  · -- behind the prefix the two names differ in one letter, which need not be a capital there
    rw [toList_spelling, transform, mode, toList_start] at valid
    refine render_eq_ok_iff.2 ⟨rfl, ?_⟩
    rw [toList_spelling, transform, mode, toList_keyName]
    cases side <;> exact isVariable_capital (by decide) rfl valid
  · exact render_of_spelling_eq (spelling_start mode side k).symm h

/-! ### Key fields with one variable -/

theorem keyName_inj {side : Side} {k k' : String} : side.keyName k = side.keyName k' ↔ k = k' := by
  rw [← String.toList_inj, toList_keyName, toList_keyName, List.append_right_inj,
    List.cons_inj_right, String.toList_inj]

/-- Key fields of a side have one variable only if names are repaired and become the same. -/
theorem spelling_keyName_eq_iff {k' : String} :
    n.spelling (side.keyName k) = n.spelling (side.keyName k') ↔
      if n.mode = .sanitize then repaired k = repaired k' else k = k' := by
  rw [spelling_keyName, spelling_keyName]
  cases mode : n.mode with
  | error | capitalize => exact keyName_inj
  | sanitize =>
    show _ ↔ repaired k = repaired k'
    rw [String.ofList_inj, List.append_right_inj, List.cons_inj_right]
  | prefixed =>
    show _ ↔ k = k'
    rw [← String.toList_inj, String.toList_append, String.toList_append, List.append_right_inj,
      String.toList_inj, keyName_inj]

variable {r : RelSchema} {c : Condition}

/-- The key variables of a side are different, unless names are repaired and become the same. -/
theorem nodup_keyVars_iff : (n.keyVars r side).Nodup ↔
    (n.mode = .sanitize → ((r.keyFieldsOf side).map repaired).Nodup) := by
  have distinct := r.nodup_keyFieldsOf side
  rw [keyVars, List.nodup_map_iff_inj_on distinct, List.nodup_map_iff_inj_on distinct]
  simp only [spelling_keyName_eq_iff]
  by_cases mode : n.mode = .sanitize
  · simp only [mode, if_true, forall_const]
  · simp only [mode, if_false, imp_self, implies_true, IsEmpty.forall_iff]

/-! ### Key fields that are not found -/

/-- The key variables of a side that a prefix keeps from being found under the names of the
signature. -/
def overlooked (n : Namer) (r : RelSchema) (c : Condition) (side : Side) : List String :=
  if n.mode = .prefixed then
    ((r.keyFieldsOf side).filter fun k => side.keyName k ∉ c.varNames).map
      fun k => n.spelling (side.keyName k)
  else []

/-- With the names of the signature among its own, a condition misses what a prefix keeps it from
having. -/
theorem missing_eq_overlooked (apart : n.Separates c.varNames) (keys : r.keyFields ⊆ c.varNames)
    (side : Side) : n.missing r c side = n.overlooked r c side := by
  have held {k : String} (hk : k ∈ r.keyFieldsOf side) : side.start ++ k ∈ c.varNames :=
    keys (RelSchema.mem_keyFields.2 ⟨side, k, hk, rfl⟩)
  unfold overlooked
  split
  case isTrue mode =>
    -- behind a prefix a name becomes the variable of no other name
    rw [missing, keyVars, List.filter_map]
    refine congrArg _ (List.filter_congr fun k _ => ?_)
    have known : (n.varsOf c).contains (n.spelling (side.keyName k)) =
        decide (side.keyName k ∈ c.varNames) := by
      rw [List.contains_eq_mem]
      exact decide_eq_decide.2 (List.mem_map_of_injective (spelling_injective (.inr mode)))
    rw [Function.comp_apply, known, decide_not]
  case isFalse mode =>
    rw [missing_eq_nil_iff]
    refine List.forall_mem_map.2 fun k hk => ?_
    obtain ⟨v, rendered⟩ := apart.named _ (held hk)
    have same := spelling_start ((mode_of_render_start rendered).resolve_left mode) side k
    exact List.mem_map.2 ⟨_, held hk, same⟩

end Namer

namespace Writer

variable {w : Writer} {r : RelSchema} {index : Nat} {c : Condition} {literals : List String}

/-- **Key variables under the names of the signature.** With all of these names among its own, a
condition without the variables for the sides gets a binding for each side, unless a prefix keeps a
key variable from being found; then it is said to leave the first such side without a value. -/
theorem body_of_keyFields (auto : w.config.binding = .auto)
    (writes : w.Writes (.rel r) c literals) (free : ∀ side : Side, side.headVar ∉ c.varNames)
    (keys : r.keyFields ⊆ c.varNames) :
    w.body (.rel r) index c =
      match [Side.sub, .obj].find? fun side => w.config.namer.overlooked r c side ≠ [] with
      | some side =>
        .error (.unboundEndpoint r.name index side (w.config.namer.overlooked r c side))
      | none => .ok (commaList
          (literals ++ [w.config.namer.keyBinding r .sub, w.config.namer.keyBinding r .obj])) := by
  have apart := writes.apart.right
  -- neither head variable is among the names, and no other name is spelled in its way
  have both : w.config.namer.unbound c = [.sub, .obj] := by
    refine List.filter_eq_self.2 fun side _ => ?_
    exact decide_eq_true (Namer.mem_unbound.1 (writes.apart.mem_unbound_iff.2 (free side)))
  have named (side : Side) : w.config.namer.NamesKeys r side := by
    intro k hk
    obtain ⟨v, rendered⟩ := apart.named _ (keys (RelSchema.mem_keyFields.2 ⟨side, k, hk, rfl⟩))
    exact Namer.exists_render_keyName rendered
  rw [body_rel_eq auto writes fun side _ => named side, both]
  simp only [Namer.missing_eq_overlooked apart keys]
  cases [Side.sub, .obj].find? fun side => w.config.namer.overlooked r c side ≠ [] with
  | some side => rfl
  | none =>
    refine congrArg Except.ok (if_neg ?_)
    simp

end Writer

/-! ### Who has the smaller number -/

/-- The one has a smaller number than the other. -/
def Condition.smaller : Condition where
  literals := [.expr (.call "lt" [.var ⟨"sub_number", none⟩, .var ⟨"obj_number", none⟩])]
  prob := none

/-- Whoever has the smaller number knows the other, where variables are put behind a prefix. -/
def Rule.smallerPrefixed : Rule where
  head := .rel .knows
  conditions := [.smaller]
  overrides := ⟨some .prefixed, none, none⟩

theorem Writer.writes_smaller : (Writer.plain .empty "prolog" .arrow).Writes (.rel .knows) .smaller
    ["Sub_number < Obj_number"] where
  apart := Namer.exists_renderAll_iff.1 ⟨_, rfl⟩
  written := by decide +kernel

theorem RelSchema.keyFields_smaller :
    (∀ side : Side, side.headVar ∉ Condition.smaller.varNames) ∧
      RelSchema.knows.keyFields ⊆ Condition.smaller.varNames := by
  refine ⟨fun side => ?_, by decide +kernel⟩
  cases side <;> decide +kernel

theorem Writer.body_of_keyFields_smaller :
    let w := Writer.plain .empty "prolog" .arrow
    w.config.binding = .auto ∧ w.Writes (.rel .knows) .smaller ["Sub_number < Obj_number"] ∧
    (∀ side : Side, side.headVar ∉ Condition.smaller.varNames) ∧
    RelSchema.knows.keyFields ⊆ Condition.smaller.varNames ∧
    w.body (.rel .knows) 0 .smaller =
      .ok "Sub_number < Obj_number, Sub = person(Sub_number), Obj = person(Obj_number)" := by
  intro w
  obtain ⟨free, keys⟩ := RelSchema.keyFields_smaller
  refine ⟨rfl, writes_smaller, free, keys, ?_⟩
  rw [body_of_keyFields rfl writes_smaller free keys]
  decide +kernel

/-- Behind a prefix, the key variables under the names of the signature are not found. -/
theorem Dialect.keyFields_overlooked :
    let w := Writer.forRule .empty prolog.name prolog.choiceStyle .smallerPrefixed
    w.config.binding = .auto ∧ w.head (.rel .knows) = .ok "knows(V_Sub, V_Obj, V_since)" ∧
    w.Writes (.rel .knows) .smaller ["V_sub_number < V_obj_number"] ∧
    (∀ side : Side, side.headVar ∉ Condition.smaller.varNames) ∧
    RelSchema.knows.keyFields ⊆ Condition.smaller.varNames ∧
    prolog.renderRule .empty .smallerPrefixed =
      .error (.unboundEndpoint "knows" 0 .sub ["V_Sub_number"]) := by
  intro w
  obtain ⟨free, keys⟩ := RelSchema.keyFields_smaller
  refine ⟨rfl, by decide +kernel, ⟨?_, by decide +kernel⟩, free, keys, by decide +kernel⟩
  exact (Namer.exists_renderAll_iff (n := ⟨.prefixed, "V_"⟩)).1 ⟨_, rfl⟩

/-! ### Which key variables a binding has -/

namespace Writer

variable {w : Writer} {r : RelSchema} {index : Nat} {c : Condition}

/-- **Which key variables a binding has.** A body is written when they all stand in the condition,
one for each key field of the side in order; they are different unless names are repaired and those
of two key fields become the same. A condition that has not got them all fails for a side where one
is missing. -/
theorem keyVars_of_body (auto : w.config.binding = .auto) :
    (∀ text, w.body (.rel r) index c = .ok text ↔ ∃ literals, w.Writes (.rel r) c literals ∧
      (∀ side ∈ w.config.namer.unbound c,
        w.config.namer.keyVars r side ⊆ w.config.namer.varsOf c) ∧
      text = conjunction
        (literals ++ (w.config.namer.unbound c).map (w.config.namer.keyBinding r))) ∧
    (∀ side, (w.config.namer.keyVars r side).Nodup ↔
      (w.config.namer.mode = .sanitize → ((r.keyFieldsOf side).map Namer.repaired).Nodup)) ∧
    ∀ literals, w.Writes (.rel r) c literals →
      (∀ side ∈ w.config.namer.unbound c, w.config.namer.NamesKeys r side) →
      ∀ side ∈ w.config.namer.unbound c, ∀ v ∈ w.config.namer.keyVars r side,
        v ∉ w.config.namer.varsOf c →
        ∃ first ∈ w.config.namer.unbound c, w.config.namer.missing r c first ≠ [] ∧
          w.body (.rel r) index c =
            .error (.unboundEndpoint r.name index first (w.config.namer.missing r c first)) := by
  refine ⟨fun text => body_rel_eq_ok_iff auto, fun side => Namer.nodup_keyVars_iff, ?_⟩
  intro literals writes named side fresh v mem absent
  have lacking : w.config.namer.missing r c side ≠ [] := by
    rw [ne_eq, Namer.missing_eq_nil_iff]
    exact fun all => absent (all mem)
  have body : w.body (.rel r) index c = _ := body_rel_eq auto writes named
  cases found : (w.config.namer.unbound c).find? fun side => w.config.namer.missing r c side ≠ []
  case none =>
    have complete := List.find?_eq_none.1 found side fresh
    exact absurd (decide_eq_true lacking) complete
  case some first =>
    rw [found] at body
    have lacks : w.config.namer.missing r c first ≠ [] := by simpa using List.find?_some found
    exact ⟨first, List.mem_of_find?_eq_some found, lacks, body⟩

end Writer

theorem Writer.keyVars_of_body_smaller :
    let w := Writer.plain .empty "prolog" .arrow
    w.config.binding = .auto ∧
    (∃ text literals, w.body (.rel .knows) 0 .smaller = .ok text ∧
      w.Writes (.rel .knows) .smaller literals) ∧
    (∀ side, (w.config.namer.keyVars .knows side).Nodup) ∧
    ∃ first ∈ w.config.namer.unbound ⟨[], none⟩,
      w.body (.rel .knows) 0 ⟨[], none⟩ = .error (.unboundEndpoint "knows" 0 first
        (w.config.namer.missing .knows ⟨[], none⟩ first)) := by
  intro w
  have text : w.body (.rel .knows) 0 .smaller =
      .ok "Sub_number < Obj_number, Sub = person(Sub_number), Obj = person(Obj_number)" := by
    decide +kernel
  obtain ⟨literals, writes, -⟩ := ((keyVars_of_body rfl).1 _).1 text
  have distinct := (@keyVars_of_body w .knows 0 .smaller rfl).2.1
  refine ⟨rfl, ⟨_, literals, text, writes⟩, fun side => (distinct side).2 fun _ => ?_, ?_⟩
  · cases side <;> decide +kernel
  · have writes : w.Writes (.rel .knows) ⟨[], none⟩ [] :=
      ⟨writes_smaller.apart.of_subset (by decide +kernel), rfl⟩
    have named : ∀ side ∈ w.config.namer.unbound ⟨[], none⟩,
        w.config.namer.NamesKeys .knows side := by
      intro side _ k hk
      cases side <;> cases List.mem_singleton.1 hk <;> exact ⟨_, rfl⟩
    obtain ⟨first, fresh, -, failed⟩ := (keyVars_of_body rfl).2.2 [] writes named .sub
      (by decide +kernel) "Sub_number" (by decide +kernel) (by decide +kernel)
    exact ⟨first, fresh, failed⟩

/-! ### Places with two key fields -/

/-- Places, which have key fields that are the same but for a blank. -/
def FactSchema.place : FactSchema where
  name := "place"
  signature := ⟨[⟨"a b", "int", some .key, none⟩, ⟨"a_b", "int", some .key, none⟩], by decide⟩
  keyFields := ["a b", "a_b"]
  keyFields_subset := by decide
  description := none
  mergePolicy := .keepAll
  id := _
  id_eq := rfl

/-- Which place is near which. -/
def RelSchema.near : RelSchema where
  name := "near"
  sub := .place
  obj := .place
  subKeyFields := ["a b", "a_b"]
  subKeyFields_subset := by decide
  objKeyFields := ["a b", "a_b"]
  objKeyFields_subset := by decide
  props := ⟨[], List.nodup_nil⟩
  names_nodup := by decide +kernel
  description := none
  mergePolicy := .keepAll
  id := _
  id_eq := rfl

/-- A condition that has a variable for one key field of each place. -/
def Condition.nearer : Condition where
  literals := [.expr (.call "lt" [.var ⟨"sub_a_b", none⟩, .var ⟨"obj_a_b", none⟩])]
  prob := none

/-- The variable for one key field is taken for the other as well. -/
theorem Writer.keyVars_conflated :
    let w := Writer.plain .empty "prolog" .arrow
    w.config.binding = .auto ∧ Condition.nearer.varNames = ["sub_a_b", "obj_a_b"] ∧
    (∀ side, RelSchema.near.keyFieldsOf side = ["a b", "a_b"]) ∧
    w.body (.rel .near) 0 .nearer = .ok ("Sub_a_b < Obj_a_b, " ++
      "Sub = place(Sub_a_b, Sub_a_b), Obj = place(Obj_a_b, Obj_a_b)") ∧
    w.config.namer.unbound .nearer = [.sub, .obj] ∧
    ¬ (w.config.namer.keyVars .near .sub).Nodup := by
  refine ⟨rfl, by decide +kernel, fun side => by cases side <;> rfl, by decide +kernel,
    by decide +kernel, by decide +kernel⟩

end Clausal
