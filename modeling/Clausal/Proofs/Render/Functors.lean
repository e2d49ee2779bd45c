import Clausal.Proofs.Record.Stored
import Clausal.Proofs.Render.Blocks
import Clausal.Proofs.Render.ClauseParts
import Clausal.Proofs.Render.Variables

/-!
# The functors that are written

Main statement: `Dialect.functors_of_render`. The functors of a clause, a fact or a query are the
names of its schemas as they are, and the names of operators. A name is an atom of the target
languages or is none (`isAtomToken`); unlike a string, which becomes one
(`isAtomToken_of_toTerm`), it is copied in either case.
-/

namespace Clausal

/-! ### Atoms -/

/-- Whether characters end with the quote that closes an atom, and have no such quote before. -/
def closesQuote : List Char → Bool
  | [] => false
  | ['\x27'] => true
  | '\x27' :: '\x27' :: rest => closesQuote rest
  | '\x27' :: _ => false
  | '\\' :: _ :: rest => closesQuote rest
  | _ :: rest => closesQuote rest

/-- Whether characters make up an atom, which is a name in small letters or is in quotes. -/
def isAtomToken : List Char → Bool
  | '\x27' :: rest => closesQuote rest
  | cs => isBareAtom cs

theorem closesQuote_cons {c : Char} {rest : List Char} (quote : c ≠ '\x27')
    (backslash : c ≠ '\\') : closesQuote (c :: rest) = closesQuote rest := by
  rw [closesQuote] <;> simp [quote, backslash]

/-- A quoted character does not close an atom. -/
theorem closesQuote_quoteAtomChar (c : Char) (rest : List Char) :
    closesQuote (quoteAtomChar c ++ rest) = closesQuote rest := by
  unfold quoteAtomChar
  split
  case isTrue special => rw [List.cons_append, List.cons_append, closesQuote, List.nil_append]
  case isFalse plain =>
    exact closesQuote_cons (fun eq => plain (.inr eq)) (fun eq => plain (.inl eq))

theorem isAtomToken_quoteAtom (cs : List Char) : isAtomToken (quoteAtom cs) = true := by
  rw [quoteAtom, List.cons_append, isAtomToken]
  induction cs with
  | nil => rfl
  | cons c rest ih => rw [List.flatMap_cons, List.append_assoc, closesQuote_quoteAtomChar, ih]

theorem isAtomToken_of_isBareAtom {cs : List Char} (h : isBareAtom cs = true) :
    isAtomToken cs = true := by
  unfold isAtomToken
  split
  case h_1 rest => cases h
  case h_2 => exact h

/-- A string becomes an atom, whatever it is. -/
theorem isAtomToken_of_toTerm {s t : String} (h : (Value.str s).toTerm = .ok t) :
    isAtomToken t.toList = true := by
  cases h
  split
  case isTrue bare => exact isAtomToken_of_isBareAtom bare
  case isFalse =>
    rw [String.toList_ofList]
    exact isAtomToken_quoteAtom _

/-! ### Facts and queries -/

/-- A text is the atom of a schema for variables and constants, so that it has the functors of the
schema and no others. -/
def Schema.IsAtomText (s : Schema) (style : ChoiceStyle) (text : String) : Prop :=
  ∃ terms p, (∀ t ∈ terms, t.isTerm = true) ∧ s.atomPhrase terms = .ok p ∧
    p.functors = s.functors ∧ p.text style = text

namespace Writer

variable {w : Writer} {style : ChoiceStyle} {text : String}

theorem isAtomText_of_atom {s : Schema} {terms : List Phrase}
    (h : atom (.schema s) (terms.map (Phrase.text style)) = .ok text)
    (simple : ∀ t ∈ terms, t.isTerm = true) : s.IsAtomText style text := by
  rw [atom_eq] at h
  obtain ⟨p, written, rfl⟩ := map_eq_ok.1 h
  exact ⟨terms, p, simple, written, Phrase.functors_atomPhrase written simple, rfl⟩

theorem isAtomText_of_factAtom {r : Record} (h : w.factAtom r = .ok text) :
    ∃ s, w.context.source r.schemaId = .ok s ∧ s.IsAtomText style text := by
  obtain ⟨s, found, h⟩ := bind_eq_ok.1 h
  obtain ⟨values, -, h⟩ := bind_eq_ok.1 h
  obtain ⟨words, -, h⟩ := bind_eq_ok.1 h
  refine ⟨s, mapError_eq_ok.1 found, ?_⟩
  have texts : (words.map Phrase.word).map (Phrase.text style) = words := by
    rw [List.map_map]
    exact List.map_id _
  rw [← texts] at h
  refine isAtomText_of_atom h fun t ht => ?_
  obtain ⟨word, -, rfl⟩ := List.mem_map.1 ht
  rfl

/-- Without a library only schemas can be asked about. -/
theorem exists_schema_of_target (bare : w.context.IsBare) {q : QueryTarget} {asked : Resolved}
    (h : w.target q = .ok asked) :
    ∃ s, asked = .schema s ∧
      (q = .schema s ∨ ∃ id, q = .lookup id ∧ w.context.source id = .ok s) := by
  cases q with
  | schema s =>
    cases h
    exact ⟨s, rfl, .inl rfl⟩
  | lookup id =>
    rw [Writer.target, resolve, bare.library] at h
    cases found : w.context.source id <;> rw [found] at h <;> cases h
    exact ⟨_, rfl, .inr ⟨id, rfl, found⟩⟩

end Writer

namespace Dialect

variable {d : Dialect} {context : RenderContext} {style : ChoiceStyle} {text : String}

/-- The line of a fact is its atom, with what ProbLog puts in front of it. -/
theorem isAtomText_of_factLine {w : Writer} {index : Nat} {r : Record}
    (h : d.factLine w index r = .ok text) :
    ∃ opening atom s, text = opening ++ atom ++ "." ∧ w.context.source r.schemaId = .ok s ∧
      s.IsAtomText style atom := by
  have plain (h : (do return (← w.factAtom r) ++ ".") = Except.ok text) :
      ∃ opening atom s, text = opening ++ atom ++ "." ∧ w.context.source r.schemaId = .ok s ∧
        s.IsAtomText style atom := by
    obtain ⟨atom, written, h⟩ := bind_eq_ok.1 h
    obtain ⟨s, known, isAtom⟩ := Writer.isAtomText_of_factAtom written
    refine ⟨"", atom, s, ?_, known, isAtom⟩
    rw [String.empty_append]
    exact (Except.ok.inj h).symm
  cases d with
  | problog =>
    obtain ⟨⟨p, origin⟩, -, h⟩ := bind_eq_ok.1 h
    obtain ⟨atom, written, h⟩ := bind_eq_ok.1 h
    obtain ⟨s, known, isAtom⟩ := Writer.isAtomText_of_factAtom written
    exact ⟨_, atom, s, (Except.ok.inj h).symm, known, isAtom⟩
  | prolog | cypher | datalog => exact plain h

theorem forall₂_of_factLines {w : Writer} {R : Record → String → Prop}
    (each : ∀ index r text, d.factLine w index r = .ok text → R r text) :
    ∀ {index : Nat} {records : List Record} {texts : List String},
      d.factLines w index records = .ok texts → List.Forall₂ R records texts := by
  intro index records
  induction records generalizing index with
  | nil =>
    intro texts h
    cases h
    exact .nil
  | cons r rest ih =>
    intro texts h
    obtain ⟨first, written, h⟩ := bind_eq_ok.1 h
    obtain ⟨others, later, h⟩ := bind_eq_ok.1 h
    cases h
    exact .cons (each _ _ _ written) (ih later)

theorem isAtomText_of_renderFacts {records : List Record}
    (h : d.renderFacts context records = .ok text) :
    ∃ texts, text = lines texts ∧ List.Forall₂ (fun r line =>
      ∃ opening atom s, line = opening ++ atom ++ "." ∧ context.source r.schemaId = .ok s ∧
        s.IsAtomText d.choiceStyle atom) records texts := by
  unfold renderFacts at h
  split at h
  case isTrue => cases h
  case isFalse =>
    obtain ⟨texts, written, rfl⟩ := map_eq_ok.1 h
    exact ⟨texts, rfl, forall₂_of_factLines (fun _ _ _ => isAtomText_of_factLine) written⟩

theorem isAtomText_of_renderQuery (bare : context.IsBare) {q : Query}
    (h : d.renderQuery context q = .ok text) :
    ∃ atom s, text = d.goal atom ∧
      (q.target = .schema s ∨ ∃ id, q.target = .lookup id ∧ context.source id = .ok s) ∧
      s.IsAtomText d.choiceStyle atom := by
  obtain ⟨-, terms, each, asked, found, atom, made, eq⟩ := atom_of_renderQuery h
  obtain ⟨s, rfl, known⟩ := Writer.exists_schema_of_target bare found
  rw [mapM_eq_map Writer.term_eq] at each
  obtain ⟨phrases, lowered, rfl⟩ := map_eq_ok.1 each
  refine ⟨atom, s, eq, known, Writer.isAtomText_of_atom made ?_⟩
  exact forall_of_mapM lowered fun _ _ => Writer.isTerm_of_termPhrase

end Dialect

/-! ### Clauses -/

/-- The names that an atom of a schema is written with are atoms themselves. -/
def Schema.IsNamedByAtoms (s : Schema) : Prop :=
  ∀ name ∈ s.functors, isAtomToken name.toList = true

theorem Schema.name_mem_functors (s : Schema) : s.name ∈ s.functors := by
  cases s <;> exact List.mem_cons_self

namespace Writer

variable {w : Writer} {s : Schema} {c : Condition} {name : String}

theorem mem_functors_of_addedEndpoints (h : name ∈ w.addedEndpoints s c) : name ∈ s.functors := by
  unfold addedEndpoints at h
  split at h
  case h_1 r _ =>
    have endpoint {side : Side} (h : name ∈ (w.addedEndpoint? r c side).toList) :
        name ∈ (Schema.rel r).functors := by
      unfold addedEndpoint? at h
      split at h
      case isTrue => cases h
      case isFalse =>
        cases List.mem_singleton.1 h
        cases side <;> simp [Schema.functors, RelSchema.endpoint]
    rcases List.mem_append.1 h with h | h
    · exact endpoint h
    · exact endpoint h
  case h_2 => cases h

/-- A functor is the name of an operator, or it belongs to the head or to what is referred to. -/
theorem mem_functors (h : name ∈ w.functors s c) :
    name ∈ s.functors ∨ (∃ id t, w.context.source id = .ok t ∧ name ∈ t.functors) ∨
      ∃ arity, .operator name arity ∈ c.nodes := by
  rcases List.mem_cons.1 h with rfl | h
  · exact .inl s.name_mem_functors
  rcases List.mem_append.1 h with h | h
  · obtain ⟨n, hn, h⟩ := List.mem_flatMap.1 h
    cases n with
    | var | value => cases h
    | operator op arity =>
      rw [Node.functors] at h
      split at h
      case isTrue => cases h
      case isFalse =>
        cases List.mem_singleton.1 h
        exact .inr (.inr ⟨arity, hn⟩)
    | ref r =>
      rw [Node.functors] at h
      cases found : w.context.source r.schemaId with
      | error e =>
        rw [found] at h
        cases h
      | ok t =>
        rw [found] at h
        exact .inr (.inl ⟨_, t, found, h⟩)
  · exact .inl (mem_functors_of_addedEndpoints h)

theorem isAtomToken_of_mem_functors (head : s.IsNamedByAtoms)
    (known : ∀ id t, w.context.source id = .ok t → t.IsNamedByAtoms)
    (h : name ∈ w.functors s c) :
    isAtomToken name.toList = true ∨ ∃ arity, .operator name arity ∈ c.nodes := by
  rcases mem_functors h with mem | ⟨id, t, found, mem⟩ | operator
  · exact .inl (head name mem)
  · exact .inl (known id t found name mem)
  · exact .inr operator

end Writer

namespace Dialect

/-- **The functors that are written are the names of schemas as they are**, and those of operators
that have no symbol. In a clause, a functor that is no operator is therefore an atom if the names of
all schemas are atoms, and so are the functors of facts and queries. -/
theorem functors_of_render (d : Dialect) {context : RenderContext} (bare : context.IsBare) :
    (∀ (r : Rule) (text : String), d.renderRule context r = .ok text →
      ∃ clauses, text = lines (clauses.flatMap (Clause.lines d.choiceStyle)) ∧
        List.Forall₂ (fun c clause =>
          clause.functors = (Writer.forRule context d.name d.choiceStyle r).functors r.head c ∧
          (r.head.IsNamedByAtoms → (∀ id s, context.source id = .ok s → s.IsNamedByAtoms) →
            ∀ name ∈ clause.functors,
              isAtomToken name.toList = true ∨ ∃ arity, .operator name arity ∈ c.nodes))
          r.conditions clauses) ∧
    (∀ (records : List Record) (text : String), d.renderFacts context records = .ok text →
      ∃ texts, text = lines texts ∧ List.Forall₂ (fun r line =>
        ∃ opening atom s, line = opening ++ atom ++ "." ∧ context.source r.schemaId = .ok s ∧
          s.IsAtomText d.choiceStyle atom) records texts) ∧
    (∀ (q : Query) (text : String), d.renderQuery context q = .ok text →
      ∃ atom s, text = d.goal atom ∧
        (q.target = .schema s ∨ ∃ id, q.target = .lookup id ∧ context.source id = .ok s) ∧
        s.IsAtomText d.choiceStyle atom) := by
  refine ⟨fun r text h => ?_, fun _ _ => isAtomText_of_renderFacts,
    fun _ _ => isAtomText_of_renderQuery bare⟩
  rw [renderRule_eq bare] at h
  obtain ⟨clauses, written, rfl⟩ := map_eq_ok.1 h
  obtain ⟨head, hh, each⟩ := exists_of_clauses written
  refine ⟨clauses, rfl, each.imp ?_⟩
  rintro c clause ⟨index, body, above, opening, hb, rfl⟩
  have functors := Writer.functors_of_phrases hh hb above opening
  refine ⟨functors, fun named known name mem => ?_⟩
  rw [functors] at mem
  exact Writer.isAtomToken_of_mem_functors named known mem

end Dialect

/-! ### A predicate with a capital -/

/-- People, whose name has a capital. -/
def FactSchema.capitalized : FactSchema where
  name := "Person"
  signature := ⟨[⟨"number", "int", some .id, none⟩], by decide⟩
  keyFields := ["number"]
  keyFields_subset := by decide
  description := none
  mergePolicy := .keepAll
  id := _
  id_eq := rfl

/-- The registry of these people. -/
def Registry.capitalized : Registry where
  predicates := [.fact .capitalized]
  increasing := List.pairwise_singleton ..
  ids_nodup := List.nodup_singleton _
  closed := by
    intro s hs
    cases List.mem_singleton.1 hs
    exact List.nil_subset _

/-- Every number is that of a person. -/
def Rule.capitalized : Rule := ⟨.fact .capitalized, [⟨[], none⟩], .none⟩

/-- The functor of the clause is a variable of the target language. -/
theorem Dialect.capitalized_no_atom :
    prolog.renderRule ⟨Registry.capitalized.get, none, none, .default⟩ .capitalized =
        .ok "Person(Number) :- true." ∧
      "Person" ∈ (Schema.fact .capitalized).functors ∧ isAtomToken "Person".toList = false ∧
      isVariable "Person".toList = true := by
  refine ⟨by decide +kernel, .head _, by decide, by decide⟩

/-! ### Who knows whom -/

/-- A context that knows who knows whom. -/
def RenderContext.knowing : RenderContext := ⟨fun _ => .ok (.rel .knows), none, none, .default⟩

/-- Who knows whom since 1999? -/
def Query.knowing : Query := ⟨.lookup RelSchema.knows.id,
  [.var ⟨"who", none⟩, .var ⟨"whom", none⟩, .const ⟨.int 1999, none⟩]⟩

theorem Record.toTerms_acquaintance :
    acquaintance.toTerms (.rel .knows) = .ok [.int 1, .int 2, .int 1999] := by
  have same : (Schema.rel .knows).id = acquaintance.schemaId := rfl
  rw [toTerms, if_neg (not_not.2 same)]
  rfl

namespace Dialect

theorem renderRule_knowing : prolog.renderRule .knowing .seniority =
    .ok ("knows(Sub, Obj, Since) :- Sub_number < Obj_number, Since = 1999, " ++
      "Sub = person(Sub_number), Obj = person(Obj_number).") := by
  decide +kernel

theorem renderFacts_knowing : prolog.renderFacts .knowing [.acquaintance] =
    .ok "knows(person(1), person(2), 1999)." := by
  have atom : (Writer.plain .knowing prolog.name prolog.choiceStyle).factAtom .acquaintance =
      .ok "knows(person(1), person(2), 1999)" := by
    show (Except.mapError RenderError.schema (Record.acquaintance.toTerms (.rel .knows)) >>= _) = _
    rw [Record.toTerms_acquaintance]
    decide +kernel
  have line : prolog.factLine (.plain .knowing prolog.name prolog.choiceStyle) 0 .acquaintance =
      .ok "knows(person(1), person(2), 1999)." := by
    show (Writer.factAtom _ _ >>= _) = _
    rw [atom]
    decide +kernel
  show lines <$> (prolog.factLine _ 0 _ >>= _) = _
  rw [line]
  decide +kernel

theorem renderQuery_knowing : prolog.renderQuery .knowing .knowing =
    .ok "?- knows(person(Who), person(Whom), 1999)." := by
  decide +kernel

theorem functors_knowing : RenderContext.knowing.IsBare ∧
    (∃ text, prolog.renderRule .knowing .seniority = .ok text) ∧
    (∃ text, prolog.renderFacts .knowing [.acquaintance] = .ok text) ∧
    (∃ text, prolog.renderQuery .knowing .knowing = .ok text) ∧
    (Schema.rel .knows).IsNamedByAtoms ∧
    (∃ clauses : List Clause, List.Forall₂ (fun c clause => ∀ name ∈ clause.functors,
        isAtomToken name.toList = true ∨ ∃ arity, .operator name arity ∈ c.nodes)
      Rule.seniority.conditions clauses) ∧
    (∃ line opening atom, lines [line] = "knows(person(1), person(2), 1999)." ∧
      line = opening ++ atom ++ "." ∧ (Schema.rel .knows).IsAtomText .arrow atom) ∧
    ∃ atom, prolog.goal atom = "?- knows(person(Who), person(Whom), 1999)." ∧
      (Schema.rel .knows).IsAtomText .arrow atom := by
  have bare : RenderContext.knowing.IsBare := ⟨rfl, rfl⟩
  have named : (Schema.rel .knows).IsNamedByAtoms := by
    unfold Schema.IsNamedByAtoms
    decide +kernel
  obtain ⟨rules, facts, queries⟩ := functors_of_render prolog bare
  refine ⟨bare, ⟨_, renderRule_knowing⟩, ⟨_, renderFacts_knowing⟩, ⟨_, renderQuery_knowing⟩, named,
    ?_, ?_, ?_⟩
  · obtain ⟨clauses, -, each⟩ := rules _ _ renderRule_knowing
    refine ⟨clauses, each.imp fun c clause h => h.2 named fun _ s found => ?_⟩
    cases found
    exact named
  · obtain ⟨texts, eq, each⟩ := facts _ _ renderFacts_knowing
    cases each with
    | cons first rest =>
      cases rest
      obtain ⟨opening, atom, s, line, found, isAtom⟩ := first
      cases found
      exact ⟨_, opening, atom, eq.symm, line, isAtom⟩
  · obtain ⟨atom, s, eq, known, isAtom⟩ := queries _ _ renderQuery_knowing
    rcases known with asked | ⟨id, -, found⟩
    · cases asked
    · cases found
      exact ⟨atom, eq.symm, isAtom⟩

end Dialect

end Clausal
