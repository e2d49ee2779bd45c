import Clausal.Proofs.Render.Joins

/-!
# The variables for the sides of a relation

Main statement: `Writer.body_rel_eq`. When the names of a clause are kept apart and its literals can
be written, the body of a relation rule fails for the first side that has neither its own variable
nor all its key variables there, and otherwise a binding for each side without its own variable
comes after the literals.
-/

namespace Clausal

def Side.keyName (side : Side) (field : String) : String := side.headVar ++ "_" ++ field

/-! ### Variables for names that are kept apart -/

namespace Namer

variable {n : Namer} {names : List String}

theorem Separates.mapM_render (apart : n.Separates names) :
    names.mapM n.render = .ok (names.map n.spelling) :=
  mapM_eq_ok_map apart.spells.rendered

/-- A name becomes a variable if another one does that would become the same. -/
theorem render_of_spelling_eq {a b : String} (same : n.spelling a = n.spelling b)
    (rendered : n.render b = .ok (n.spelling b)) : n.render a = .ok (n.spelling a) := by
  rw [render_eq_ok_iff] at rendered ⊢
  exact ⟨rfl, same ▸ rendered.2⟩

/-! ### What a body has for a side -/

def varsOf (n : Namer) (c : Condition) : List String := c.varNames.map n.spelling

/-- The sides whose own variables are not in a condition. -/
def unbound (n : Namer) (c : Condition) : List Side :=
  [Side.sub, .obj].filter fun side => n.spelling side.headVar ∉ n.varsOf c

/-- The key variables of a side, one for each of its key fields. -/
def keyVars (n : Namer) (r : RelSchema) (side : Side) : List String :=
  (r.keyFieldsOf side).map fun k => n.spelling (side.keyName k)

/-- The key variables of a side that are not in a condition. -/
def missing (n : Namer) (r : RelSchema) (c : Condition) (side : Side) : List String :=
  (n.keyVars r side).filter fun v => !(n.varsOf c).contains v

/-- The binding of the variable for a side to its key variables. -/
def keyBinding (n : Namer) (r : RelSchema) (side : Side) : String :=
  n.spelling side.headVar ++ " = " ++ compound (r.endpoint side).name (n.keyVars r side)

/-- The names of the key variables of a side all become variables. -/
def NamesKeys (n : Namer) (r : RelSchema) (side : Side) : Prop :=
  ∀ k ∈ r.keyFieldsOf side, ∃ v, n.render (side.keyName k) = .ok v

variable {r : RelSchema} {c : Condition} {side : Side}

theorem mem_unbound : side ∈ n.unbound c ↔ n.spelling side.headVar ∉ n.varsOf c := by
  rw [unbound, List.mem_filter, decide_eq_true_iff]
  refine and_iff_right ?_
  cases side <;> simp

theorem unbound_eq_append (n : Namer) (c : Condition) : n.unbound c =
    (if .sub ∈ n.unbound c then [Side.sub] else []) ++
      if .obj ∈ n.unbound c then [Side.obj] else [] := by
  simp only [mem_unbound]
  rw [unbound, List.filter_cons, List.filter_cons]
  split <;> split <;> simp_all

theorem missing_eq_nil_iff : n.missing r c side = [] ↔ n.keyVars r side ⊆ n.varsOf c := by
  simp [missing, List.filter_eq_nil_iff, List.subset_def]

theorem NamesKeys.mapM_render (named : n.NamesKeys r side) :
    (r.keyFieldsOf side).mapM (fun k => n.render (side.keyName k)) = .ok (n.keyVars r side) := by
  refine mapM_eq_ok_map fun k hk => ?_
  obtain ⟨v, rendered⟩ := named k hk
  rw [rendered, spelling_of_render rendered]

/-- The variable for a side is in a condition only if its name is. -/
theorem Separates.mem_unbound_iff (apart : n.Separates ((Schema.rel r).headNames ++ c.varNames)) :
    side ∈ n.unbound c ↔ side.headVar ∉ c.varNames := by
  rw [mem_unbound, not_iff_not, varsOf, List.mem_map]
  constructor
  · rintro ⟨name, mem, same⟩
    have head : side.headVar ∈ (Schema.rel r).headNames ++ c.varNames :=
      List.mem_append_left _ (r.headVar_mem_headNames side)
    rw [← apart.spells.apart name (List.mem_append_right _ mem) _ head same]
    exact mem
  · exact fun mem => ⟨_, mem, rfl⟩

end Namer

/-! ### Bodies -/

namespace Writer

variable {w : Writer} {r : RelSchema} {index : Nat} {c : Condition} {side : Side}

/-- A binding is added only if the names of the key variables become variables. -/
theorem namesKeys_of_sideBinding {bound : List String} {added : Option String}
    (h : w.sideBinding r index bound side = .ok added)
    (fresh : w.config.namer.spelling side.headVar ∉ bound) : w.config.namer.NamesKeys r side := by
  obtain ⟨v, headed, h⟩ := bind_eq_ok.1 h
  rw [← Namer.spelling_of_render headed, if_neg fresh] at h
  obtain ⟨keyVars, keys, -⟩ := bind_eq_ok.1 h
  exact exists_of_mapM keys

/-- A name of a key variable that becomes no variable is an error. -/
theorem namesKeys_of_bindings {added : List String} (h : w.bindings r index c = .ok added) :
    ∀ side ∈ w.config.namer.unbound c, w.config.namer.NamesKeys r side := by
  obtain ⟨bound, vars, h⟩ := bind_eq_ok.1 h
  obtain ⟨sub, first, h⟩ := bind_eq_ok.1 h
  obtain ⟨obj, second, -⟩ := bind_eq_ok.1 h
  cases Namer.mapM_render vars
  intro side fresh
  rw [Namer.mem_unbound] at fresh
  cases side with
  | sub => exact namesKeys_of_sideBinding first fresh
  | obj => exact namesKeys_of_sideBinding second fresh

/-- The binding for a side without its own variable, if all key variables are there. -/
def keyBinding (w : Writer) (r : RelSchema) (index : Nat) (c : Condition) (side : Side) :
    Except RenderError String :=
  let missing := w.config.namer.missing r c side
  if missing ≠ [] then .error (.unboundEndpoint r.name index side missing)
  else .ok (w.config.namer.keyBinding r side)

/-- What is added for a side. -/
theorem sideBinding_eq_ite {v : String} (headed : w.var side.headVar = .ok v)
    (named : side ∈ w.config.namer.unbound c → w.config.namer.NamesKeys r side) :
    w.sideBinding r index (w.config.namer.varsOf c) side =
      if side ∈ w.config.namer.unbound c then some <$> w.keyBinding r index c side
      else .ok none := by
  have spelled := Namer.spelling_of_render headed
  rw [sideBinding, headed, ok_bind]
  -- the writer looks for the head variable among the variables, as `unbound` does
  by_cases fresh : side ∈ w.config.namer.unbound c
  · have keys : (r.keyFieldsOf side).mapM (fun k => w.var (side.headVar ++ "_" ++ k)) =
        .ok (w.config.namer.keyVars r side) := (named fresh).mapM_render
    rw [if_pos fresh, keys, ok_bind, keyBinding, Namer.keyBinding, spelled]
    rw [Namer.mem_unbound, spelled] at fresh
    rw [if_neg fresh]
    by_cases complete : w.config.namer.missing r c side = []
    · rw [if_neg (not_not.2 complete)]
      exact if_neg (not_not.2 complete)
    · rw [if_pos complete]
      exact if_pos complete
  · rw [if_neg fresh]
    rw [Namer.mem_unbound, not_not, spelled] at fresh
    rw [if_pos fresh]
    rfl

/-- Each side without its own variable gets a binding. -/
theorem bindings_eq_mapM
    (apart : w.config.namer.Separates ((Schema.rel r).headNames ++ c.varNames))
    (named : ∀ side ∈ w.config.namer.unbound c, w.config.namer.NamesKeys r side) :
    w.bindings r index c = (w.config.namer.unbound c).mapM (w.keyBinding r index c) := by
  have vars : c.varNames.mapM w.var = .ok (w.config.namer.varsOf c) := apart.right.mapM_render
  have headed (side : Side) : ∃ v, w.var side.headVar = .ok v :=
    apart.named _ (List.mem_append_left _ (r.headVar_mem_headNames side))
  obtain ⟨sub, headedSub⟩ := headed .sub
  obtain ⟨obj, headedObj⟩ := headed .obj
  rw [bindings, vars, ok_bind, sideBinding_eq_ite headedSub (named _),
    sideBinding_eq_ite headedObj (named _), Namer.unbound_eq_append, List.mapM_append]
  have alone (side : Side) : [side].mapM (w.keyBinding r index c) =
      (fun text => [text]) <$> w.keyBinding r index c side := by
    cases h : w.keyBinding r index c side <;> simp [h]
  split <;> split
  · rw [alone, alone]
    cases w.keyBinding r index c .sub <;> cases w.keyBinding r index c .obj <;> rfl
  · rw [alone]
    cases w.keyBinding r index c .sub <;> rfl
  · rw [alone]
    cases w.keyBinding r index c .obj <;> rfl
  · rfl

/-- The parts of a clause get through: the names of head and body are kept apart, and the literals
are written. -/
structure Writes (w : Writer) (s : Schema) (c : Condition) (literals : List String) : Prop where
  apart : w.config.namer.Separates (s.headNames ++ c.varNames)
  written : c.literals.mapM w.literal = .ok literals

variable {literals : List String} {text : String}

/-- **The body of a relation rule.** The first side for which neither its own variable nor all key
variables are in the condition is an error; without such a side, bindings to the key variables come
after the literals. -/
theorem body_rel_eq (auto : w.config.binding = .auto) (writes : w.Writes (.rel r) c literals)
    (named : ∀ side ∈ w.config.namer.unbound c, w.config.namer.NamesKeys r side) :
    w.body (.rel r) index c =
      match (w.config.namer.unbound c).find? fun side => w.config.namer.missing r c side ≠ [] with
      | some side => .error (.unboundEndpoint r.name index side (w.config.namer.missing r c side))
      | none => .ok (conjunction
          (literals ++ (w.config.namer.unbound c).map (w.config.namer.keyBinding r))) := by
  obtain ⟨kept, through⟩ := Namer.exists_renderAll_iff.2 writes.apart
  have bindings : w.bindings r index c = _ :=
    (bindings_eq_mapM writes.apart named).trans (mapM_eq_match (fun _ => rfl) _)
  rw [body, through, writes.written]
  simp only [ok_bind, auto, bindings]
  cases (w.config.namer.unbound c).find? fun side => w.config.namer.missing r c side ≠ [] <;> rfl

/-- A body that needs no bindings is the same however they are made. -/
theorem body_rel_of_bound (writes : w.Writes (.rel r) c literals)
    (bound : w.config.namer.unbound c = []) :
    w.body (.rel r) index c = .ok (conjunction literals) := by
  cases way : w.config.binding with
  | auto =>
    rw [body_rel_eq way writes (by rw [bound]; exact List.forall_mem_nil _), bound]
    exact congrArg (Except.ok ∘ conjunction) (List.append_nil _)
  | explicit =>
    -- nothing is looked for here, so that it does not matter what is bound
    obtain ⟨kept, through⟩ := Namer.exists_renderAll_iff.2 writes.apart
    rw [body, through, writes.written]
    simp only [ok_bind, way, List.append_nil]
    rfl

/-- Key variables that are those for names of the condition are variables. -/
theorem namesKeys_of_subset (apart : w.config.namer.Separates c.varNames)
    (keys : w.config.namer.keyVars r side ⊆ w.config.namer.varsOf c) :
    w.config.namer.NamesKeys r side := by
  intro k hk
  obtain ⟨name, mem, same⟩ := List.mem_map.1 (keys (List.mem_map_of_mem hk))
  exact ⟨_, Namer.render_of_spelling_eq same.symm (apart.spells.rendered name mem)⟩

/-- **When the body of a relation rule is written.** Each side has its own variable or all its key
variables in the condition. -/
theorem body_rel_eq_ok_iff (auto : w.config.binding = .auto) :
    w.body (.rel r) index c = .ok text ↔ ∃ literals, w.Writes (.rel r) c literals ∧
      (∀ side ∈ w.config.namer.unbound c,
        w.config.namer.keyVars r side ⊆ w.config.namer.varsOf c) ∧
      text = conjunction
        (literals ++ (w.config.namer.unbound c).map (w.config.namer.keyBinding r)) := by
  constructor
  · intro h
    have start := h
    obtain ⟨kept, through, h⟩ := bind_eq_ok.1 h
    obtain ⟨literals, written, h⟩ := bind_eq_ok.1 h
    have writes : w.Writes (.rel r) c literals := ⟨Namer.separates_of_renderAll through, written⟩
    simp only [auto] at h
    obtain ⟨added, bindings, -⟩ := bind_eq_ok.1 h
    -- where bindings are made, the key variables have been named
    rw [body_rel_eq auto writes (namesKeys_of_bindings bindings)] at start
    split at start
    case h_1 => cases start
    case h_2 complete =>
      refine ⟨literals, writes, fun side fresh => ?_, (Except.ok.inj start).symm⟩
      have none := List.find?_eq_none.1 complete side fresh
      exact Namer.missing_eq_nil_iff.1 (by simpa using none)
  · rintro ⟨literals, writes, keys, rfl⟩
    have complete : (w.config.namer.unbound c).find?
        (fun side => w.config.namer.missing r c side ≠ []) = none := by
      refine List.find?_eq_none.2 fun side fresh => ?_
      simpa using Namer.missing_eq_nil_iff.2 (keys side fresh)
    rw [body_rel_eq auto writes fun side fresh => namesKeys_of_subset writes.apart.right
      (keys side fresh), complete]

end Writer

end Clausal
