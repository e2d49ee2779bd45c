import Clausal.Proofs.Record.Evidence
import Clausal.Proofs.Render.Endpoints
import Clausal.Proofs.Render.Validated
import Clausal.Proofs.Rule.Expression
import Clausal.Proofs.Validation.Constructed

/-!
# Queries by identifier

Main statement: `Dialect.renderQuery_forId`. A query for the identifier of a schema is written as
the query for the schema is (`Writer.queryAtom_lookup`), but its terms have not been checked. Writing
them asks for names that are kept apart, for finite numbers and, in the case of a relation, for one
term for each argument (`Schema.Writes`). The number of terms of an entity and the datatypes are not
looked at (`Schema.Suits`).
-/

namespace Clausal

/-! ### The terms of a query -/

theorem Value.exists_toTerm_iff {v : Value} : (∃ t, v.toTerm = .ok t) ↔ v.IsFinite := by
  cases v with
  | float x =>
    rw [toTerm, IsFinite]
    by_cases finite : x.isFinite = true
    · rw [if_pos finite]
      exact iff_of_true ⟨_, rfl⟩ finite
    · rw [if_neg finite]
      refine iff_of_false ?_ finite
      rintro ⟨t, h⟩
      cases h
  | bool | int | str => exact iff_of_true ⟨_, rfl⟩ trivial

/-- What writing a query about a schema asks of its terms. -/
structure Schema.Writes (s : Schema) (n : Namer) (terms : List Term) : Prop where
  apart : n.Separates (Term.varNames terms)
  finite : ∀ t ∈ terms, t.IsFinite
  /-- The terms of a relation are counted, since those of its endpoints are grouped. -/
  count : s.kind = .rel → terms.length = s.arity

/-- What the check of terms asks besides: one term for each argument of an entity, and none that
cannot stand for its argument. -/
structure Schema.Suits (s : Schema) (terms : List Term) : Prop where
  count : s.kind = .fact → terms.length = s.arity
  stands : ∀ p ∈ terms.zip s.signature.args, ∀ m, ¬ p.1.Mismatches p.2 m

namespace Writer

variable {w : Writer} {s : Schema} {terms : List Term}

/-- A query for the identifier of a schema is written as the query for the schema is. -/
theorem queryAtom_lookup {id : String} (found : w.context.source id = .ok s) (terms : List Term) :
    w.queryAtom ⟨.lookup id, terms⟩ = w.queryAtom ⟨.schema s, terms⟩ := by
  simp only [queryAtom, resolve_of_source found, ok_bind]

theorem exists_atom_iff {written : List String} :
    (∃ text, atom (.schema s) written = .ok text) ↔
      (s.kind = .rel → written.length = s.arity) := by
  cases s with
  | fact f =>
    refine iff_of_true ⟨_, rfl⟩ fun h => ?_
    cases h
  | rel r =>
    rw [r.arity_eq, atom, RelSchema.atom]
    by_cases count : written.length = r.subKeyFields.length + r.objKeyFields.length + r.props.length
    · rw [if_neg (not_not.2 count)]
      exact iff_of_true ⟨_, rfl⟩ fun _ => count
    · rw [if_pos count]
      refine iff_of_false ?_ fun h => count (h rfl)
      rintro ⟨text, h⟩
      cases h

theorem exists_term_iff {t : Term} :
    (∃ text, w.term t = .ok text) ↔
      t.IsFinite ∧ ∀ name ∈ t.varName?, ∃ v, w.config.namer.render name = .ok v := by
  cases t with
  | var x => simp [term, var, Term.IsFinite, Term.varName?]
  | const c => simpa [term, Term.IsFinite, Term.varName?] using Value.exists_toTerm_iff

/-- A query about a schema is written exactly if its terms are what that asks for. -/
theorem exists_queryAtom_iff :
    (∃ text, w.queryAtom ⟨.schema s, terms⟩ = .ok text) ↔ s.Writes w.config.namer terms := by
  constructor
  · rintro ⟨text, h⟩
    obtain ⟨kept, through, h⟩ := bind_eq_ok.1 h
    obtain ⟨written, each, h⟩ := bind_eq_ok.1 h
    have count := exists_atom_iff.1 ⟨text, h⟩
    rw [length_of_mapM each] at count
    refine ⟨Namer.separates_of_renderAll through, fun t ht => ?_, count⟩
    exact (exists_term_iff.1 (exists_of_mapM each t ht)).1
  · rintro ⟨apart, finite, count⟩
    obtain ⟨kept, through⟩ := Namer.exists_renderAll_iff.2 apart
    obtain ⟨written, each⟩ : ∃ written, terms.mapM w.term = .ok written := by
      refine exists_mapM_iff.2 fun t ht => exists_term_iff.2 ⟨finite t ht, fun name named => ?_⟩
      exact apart.named name (List.mem_filterMap.2 ⟨t, ht, named⟩)
    rw [← length_of_mapM each] at count
    obtain ⟨text, applied⟩ := exists_atom_iff.2 count
    exact ⟨text, by rw [queryAtom, through, ok_bind, each, ok_bind]; exact applied⟩

end Writer

/-! ### Blank names -/

theorem isVariableChar_toUpper {c : Char} (h : isVariableChar c.toUpper = true) :
    isVariableChar c = true := by
  rcases Text.toUpper_cases c with same | below
  · rwa [same] at h
  · exact Text.char_below (P := fun c => isVariableChar c.toUpper = true → isVariableChar c = true)
      (by decide) c below h

namespace Namer

variable {n : Namer} {name v : String}

/-- Names that are not repaired have the characters of variables. -/
theorem isVariableChar_of_render (kept : n.mode ≠ .sanitize) (h : n.render name = .ok v) :
    ∀ c ∈ name.toList, isVariableChar c = true := by
  obtain ⟨rfl, valid⟩ := render_eq_ok_iff.1 h
  have chars := Piece.isVariableChar_of_isVariable valid
  rw [toList_spelling, transform] at chars
  cases mode : n.mode with
  | sanitize => exact absurd mode kept
  | error => simpa only [mode] using chars
  | prefixed =>
    simp only [mode, List.mem_append] at chars
    exact fun c hc => chars c (.inr hc)
  | capitalize =>
    simp only [mode] at chars
    cases eq : name.toList with
    | nil => exact List.forall_mem_nil _
    | cons c rest =>
      rw [eq, capitalize] at chars
      obtain ⟨first, others⟩ := List.forall_mem_cons.1 chars
      exact List.forall_mem_cons.2 ⟨isVariableChar_toUpper first, others⟩

/-- A blank name becomes a variable only if names are repaired, or if it is empty and put after a
prefix. -/
theorem mode_of_blank (h : n.render name = .ok v) (blank : Text.trim name = "") :
    n.mode = .sanitize ∨ n.mode = .prefixed ∧ name = "" := by
  by_cases kept : n.mode = .sanitize
  · exact .inl kept
  · have solid : ∀ c ∈ name.toList, Text.isBlank c = false := fun c hc =>
      isBlank_of_isVariableChar (isVariableChar_of_render kept h c hc)
    have empty : name = "" := (Text.trim_of_forall solid).symm.trans blank
    obtain ⟨rfl, valid⟩ := render_eq_ok_iff.1 h
    rw [toList_spelling, transform, empty] at valid
    cases mode : n.mode with
    | sanitize => exact absurd mode kept
    | prefixed => exact .inr ⟨rfl, empty⟩
    | error | capitalize =>
      simp only [mode] at valid
      cases valid

end Namer

/-! ### Queries -/

/-- An identifier of a schema is never blank. -/
theorem Query.forId_id (s : Schema) (terms : List Term) :
    forId s.id terms = .ok ⟨.lookup s.id, terms⟩ := by
  rw [forId, if_neg]
  rw [s.id_eq_ofText, Identifier.trim_ofText]
  exact Identifier.ofText_ne_empty _

theorem Query.exists_forSchema_iff {s : Schema} {terms : List Term} :
    (∃ q, forSchema s terms = .ok q) ↔ Term.checkAll s terms = .ok () := by
  constructor
  · rintro ⟨q, made⟩
    exact (check_bind_eq_ok.1 made).1
  · intro checked
    exact ⟨⟨.schema s, terms⟩, by rw [forSchema, checked]; rfl⟩

namespace Dialect

variable {d : Dialect} {context : RenderContext} {s : Schema}

/-- **A query by identifier is written without the check of its terms.** It is written exactly if
the names of its variables are kept apart, its numbers are finite and, for a relation, there is a
term for each argument. Everything else that the check asks is left open, up to variables with blank
names: those are refused where names are neither repaired nor put after a prefix. -/
theorem renderQuery_forId (wired : d.isStub = false) (found : context.source s.id = .ok s)
    (terms : List Term) :
    ∃ q, Query.forId s.id terms = .ok q ∧
      ((∃ text, d.renderQuery context q = .ok text) ↔ s.Writes context.config.namer terms) ∧
      (s.Writes context.config.namer terms →
        ((∃ q', Query.forSchema s terms = .ok q') ↔ s.Suits terms) ∧
        ∀ x, .var x ∈ terms → Text.trim x.name = "" → context.config.naming = .sanitize ∨
          context.config.naming = .prefixed ∧ x.name = "") := by
  refine ⟨_, Query.forId_id s terms, ?_, fun writes => ⟨?_, fun x hx blank => ?_⟩⟩
  · have writes : (∃ text, (Writer.plain context d.name d.choiceStyle).queryAtom
        ⟨.schema s, terms⟩ = .ok text) ↔ s.Writes context.config.namer terms :=
      Writer.exists_queryAtom_iff
    rw [renderQuery_eq wired, Writer.queryAtom_lookup found]
    simp only [map_eq_ok]
    refine Iff.trans ?_ writes
    exact ⟨fun ⟨_, atom, written, _⟩ => ⟨atom, written⟩, fun ⟨atom, h⟩ => ⟨_, atom, h, rfl⟩⟩
  · -- a query that is written has the right number of terms only for a relation
    rw [Query.exists_forSchema_iff, Term.checkAll_eq_ok_iff]
    refine ⟨fun h => ⟨fun _ => h.1, h.2⟩, fun h => ⟨?_, h.stands⟩⟩
    cases kind : s.kind with
    | fact => exact h.count kind
    | rel => exact writes.count kind
  · have named : x.name ∈ Term.varNames terms := List.mem_filterMap.2 ⟨.var x, hx, rfl⟩
    obtain ⟨v, rendered⟩ := writes.apart.named x.name named
    exact Namer.mode_of_blank rendered blank

end Dialect

/-! ### Who has known whom since a word -/

/-- A context with a registry of people and relations between them. -/
def RenderContext.registered : RenderContext := ⟨Registry.acquaintances.get, none, none, .default⟩

/-- Who knows whom since "soon", which is no year. -/
def Term.soon : List Term :=
  [.var ⟨"who", none⟩, .var ⟨"whom", none⟩, .const ⟨.str "soon", none⟩]

theorem RenderContext.source_registered {s : Schema} (h : s ∈ Registry.acquaintances.predicates) :
    registered.source s.id = .ok s := Registry.get_eq_ok_iff.2 ⟨h, rfl⟩

namespace Dialect

theorem renderQuery_forId_soon : prolog.isStub = false ∧
    RenderContext.registered.source (Schema.rel .knows).id = .ok (.rel .knows) ∧
    (Schema.rel .knows).Writes RenderContext.registered.config.namer Term.soon ∧
    ¬(Schema.rel .knows).Suits Term.soon ∧
    ∃ q, Query.forId (Schema.rel .knows).id Term.soon = .ok q ∧
      ∃ text, prolog.renderQuery .registered q = .ok text := by
  have known : RenderContext.registered.source (Schema.rel .knows).id = .ok (.rel .knows) :=
    RenderContext.source_registered (.tail _ (.head _))
  have writes : (Schema.rel .knows).Writes RenderContext.registered.config.namer Term.soon := by
    refine (Writer.exists_queryAtom_iff (w := .plain .registered "prolog" .arrow)).1
      ⟨"knows(person(Who), person(Whom), soon)", ?_⟩
    decide +kernel
  have refused : Term.checkAll (.rel .knows) Term.soon ≠ .ok () := by decide +kernel
  obtain ⟨q, made, written, checked⟩ := renderQuery_forId (d := .prolog) rfl known Term.soon
  refine ⟨rfl, known, writes, fun suits => ?_, q, made, written.2 writes⟩
  exact refused (Query.exists_forSchema_iff.1 ((checked writes).1.2 suits))

/-- A person has two arguments, and a query with one term is written nevertheless. -/
theorem renderQuery_person_unchecked :
    RenderContext.registered.source (Schema.fact .person).id = .ok (.fact .person) ∧
    (∃ q, Query.forId (Schema.fact .person).id [.var ⟨"X", none⟩] = .ok q ∧
      prolog.renderQuery .registered q = .ok "?- person(X).") ∧
    Query.forSchema (.fact .person) [.var ⟨"X", none⟩] =
      .error (.arityMismatch "person" 2 1) := by
  have known : RenderContext.registered.source (Schema.fact .person).id = .ok (.fact .person) :=
    RenderContext.source_registered (.head _)
  refine ⟨known, ⟨_, Query.forId_id _ _, ?_⟩, rfl⟩
  rw [renderQuery_eq rfl, Writer.queryAtom_lookup known]
  decide +kernel

end Dialect

end Clausal
