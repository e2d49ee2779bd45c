import Clausal.Proofs.Outcomes
import Clausal.Proofs.Record.Expanded
import Clausal.Proofs.Render.Constants
import Clausal.Render.Writer

/-!
# What facts say

Main statement: `Writer.factAtom_eq_factAtom_iff`. The arguments of an atom are known from its text:
a constant ends before the comma or parenthesis that follows it, whatever stands between its quotes
(`Piece.Delimited`), and an atom inside of an atom ends where its parenthesis does. Facts of one
schema with the same text are therefore about the same values, up to constants that are written
alike.
-/

namespace Clausal

namespace Piece

/-- Two texts that are the same if they go on to the same characters, unless these are taken for a
part of them. -/
def Delimited (a b : String) : Prop :=
  ∀ rest rest' : List Char, lead rest ≠ .word → lead rest' ≠ .word →
    a.toList ++ rest = b.toList ++ rest' → a = b ∧ rest = rest'

theorem IsWord.delimited {a b : String} (ha : IsWord a.toList) (hb : IsWord b.toList) :
    Delimited a b :=
  fun _ _ stops stops' eq => (ha.append_inj hb stops stops' eq).imp_left String.toList_inj.1

/-! ### Arguments -/

theorem lead_comma (rest : List Char) : lead (", ".toList ++ rest) ≠ .word :=
  fun h => nomatch (h : Lead.comma = .word)

theorem lead_closing (rest : List Char) : lead (")".toList ++ rest) ≠ .word :=
  fun h => nomatch (h : Lead.ending = .word)

/-- Where each of some texts ends, it is known where the texts with commas between them end. -/
theorem commaList_append_inj {xs ys : List String} (h : List.Forall₂ Delimited xs ys) :
    ∀ {rest rest' : List Char}, lead rest ≠ .word → lead rest' ≠ .word →
      (commaList xs).toList ++ rest = (commaList ys).toList ++ rest' → xs = ys ∧ rest = rest' := by
  induction h with
  | nil => exact fun _ _ eq => ⟨rfl, eq⟩
  | @cons x y xs ys first later ih =>
    intro rest rest' stops stops' eq
    cases later with
    | nil =>
      simp only [commaList, String.intercalate_singleton] at eq
      obtain ⟨rfl, behind⟩ := first _ _ stops stops' eq
      exact ⟨rfl, behind⟩
    | cons second later =>
      simp only [commaList, String.intercalate_cons_cons, String.toList_append,
        List.append_assoc] at eq
      obtain ⟨rfl, behind⟩ := first _ _ (lead_comma _) (lead_comma _) eq
      obtain ⟨same, ends⟩ := ih stops stops' (List.append_cancel_left behind)
      exact ⟨congrArg (x :: ·) same, ends⟩

/-- What a name is applied to is known from the text, and so is where its parenthesis closes. -/
theorem compound_append_inj (name : String) {xs ys : List String} (h : List.Forall₂ Delimited xs ys)
    {rest rest' : List Char}
    (eq : (compound name xs).toList ++ rest = (compound name ys).toList ++ rest') :
    xs = ys ∧ rest = rest' := by
  cases h with
  | nil => exact ⟨rfl, List.append_cancel_left eq⟩
  | cons first later =>
    simp only [compound, List.isEmpty_cons, Bool.false_eq_true, if_false, String.toList_append,
      List.append_assoc] at eq
    have inner := List.append_cancel_left (List.append_cancel_left eq)
    obtain ⟨same, behind⟩ :=
      commaList_append_inj (.cons first later) (lead_closing rest) (lead_closing rest') inner
    exact ⟨same, List.append_cancel_left behind⟩

theorem compound_inj {name : String} {xs ys : List String} (h : List.Forall₂ Delimited xs ys)
    (eq : compound name xs = compound name ys) : xs = ys :=
  (compound_append_inj name h (congrArg (·.toList ++ []) eq)).1

theorem delimited_compound (name : String) {xs ys : List String}
    (h : List.Forall₂ Delimited xs ys) : Delimited (compound name xs) (compound name ys) := by
  intro rest rest' _ _ eq
  obtain ⟨rfl, ends⟩ := compound_append_inj name h eq
  exact ⟨rfl, ends⟩

end Piece

/-! ### Atoms -/

open Piece

theorem RelSchema.atom_inj {r : RelSchema} {xs ys : List String}
    (h : List.Forall₂ Delimited xs ys) {text : String} (written : r.atom xs = .ok text)
    (written' : r.atom ys = .ok text) : xs = ys := by
  unfold atom at written written'
  dsimp only at written written'
  split at written
  case isTrue => cases written
  case isFalse =>
    split at written'
    case isTrue => cases written'
    case isFalse =>
      set subs := r.subKeyFields.length
      set objs := r.objKeyFields.length
      have subAtoms := List.forall₂_take subs h
      have objAtoms := List.forall₂_take objs (List.forall₂_drop subs h)
      have props := List.forall₂_drop (subs + objs) h
      -- both are applied to two entities and the props, so the parts can be told apart by count
      have same := compound_inj (.cons (delimited_compound r.sub.name subAtoms)
        (.cons (delimited_compound r.obj.name objAtoms) props))
        (Except.ok.inj (written.trans written'.symm))
      obtain ⟨sub, same⟩ := List.cons.inj same
      obtain ⟨obj, prop⟩ := List.cons.inj same
      rw [← List.drop_drop, ← List.drop_drop] at prop
      rw [← List.take_append_drop subs xs, ← List.take_append_drop subs ys,
        compound_inj subAtoms sub, ← List.take_append_drop objs (xs.drop subs),
        ← List.take_append_drop objs (ys.drop subs), compound_inj objAtoms obj, prop]

/-- Terms that are words are known from the atom of a schema. -/
theorem Writer.atom_schema_inj {s : Schema} {xs ys : List String}
    (h : List.Forall₂ Delimited xs ys) {text : String} (written : atom (.schema s) xs = .ok text)
    (written' : atom (.schema s) ys = .ok text) : xs = ys := by
  cases s with
  | fact f => exact compound_inj h (Except.ok.inj (written.trans written'.symm))
  | rel r => exact r.atom_inj h written written'

/-! ### Facts -/

namespace Value

variable {vs vs' : List Value} {xs xs' : List String}

theorem delimited_of_toTerms (h : vs.mapM toTerm = .ok xs) (h' : vs'.mapM toTerm = .ok xs')
    (length : vs.length = vs'.length) : List.Forall₂ Delimited xs xs' := by
  refine List.forall₂_iff_zip.2 ⟨?_, fun {x x'} mem => ?_⟩
  · rw [length_of_mapM h, length_of_mapM h', length]
  · obtain ⟨mem, mem'⟩ := List.of_mem_zip mem
    have words := forall_of_mapM h (P := fun t => IsWord t.toList) fun _ _ => isWord_of_toTerm
    have words' := forall_of_mapM h' (P := fun t => IsWord t.toList) fun _ _ => isWord_of_toTerm
    exact (words x mem).delimited (words' x' mem')

/-- Lists of constants are written alike when their constants are, one by one. -/
theorem toTerms_eq_toTerms_iff (h : vs.mapM toTerm = .ok xs) (h' : vs'.mapM toTerm = .ok xs') :
    xs = xs' ↔ List.Forall₂ SharesTerm vs vs' := by
  induction vs generalizing xs vs' xs' with
  | nil =>
    cases h
    cases vs' with
    | nil =>
      cases h'
      exact iff_of_true rfl .nil
    | cons v' rest' =>
      obtain ⟨x', others', -, -, rfl⟩ := mapM_cons_eq_ok.1 h'
      exact iff_of_false nofun nofun
  | cons v rest ih =>
    obtain ⟨x, others, first, later, rfl⟩ := mapM_cons_eq_ok.1 h
    cases vs' with
    | nil =>
      cases h'
      exact iff_of_false nofun nofun
    | cons v' rest' =>
      obtain ⟨x', others', first', later', rfl⟩ := mapM_cons_eq_ok.1 h'
      rw [List.cons.injEq, List.forall₂_cons, toTerm_eq_toTerm_iff first first', ih later later']

end Value

theorem Record.length_of_toTerms {r : Record} {s : Schema} {vs : List Value}
    (h : r.toTerms s = .ok vs) : vs.length = s.arity := by
  obtain ⟨-, -, held⟩ := toTerms_eq_ok_iff.1 h
  have length := congrArg List.length held
  rw [List.length_map, List.length_map] at length
  exact length.symm

namespace Writer

variable {w : Writer}

/-- The atom of a record is that of its values, as they are written. -/
theorem exists_of_factAtom {r : Record} {s : Schema} (found : w.context.source r.schemaId = .ok s)
    {text : String} (h : w.factAtom r = .ok text) : ∃ vs xs, r.toTerms s = .ok vs ∧
      vs.mapM Value.toTerm = .ok xs ∧ atom (.schema s) xs = .ok text := by
  obtain ⟨s', found', h⟩ := bind_eq_ok.1 h
  obtain rfl := Except.ok.inj (found.symm.trans (mapError_eq_ok.1 found'))
  obtain ⟨vs, terms, h⟩ := bind_eq_ok.1 h
  obtain ⟨xs, written, h⟩ := bind_eq_ok.1 h
  exact ⟨vs, xs, mapError_eq_ok.1 terms, written, h⟩

/-- **Facts lose nothing.** Two records of one schema that are written have one value for each
argument of the schema, and the same text exactly when these values are the same position by
position, where a truth value may stand against its name. -/
theorem factAtom_eq_factAtom_iff {s : Schema} {r r' : Record}
    (found : w.context.source r.schemaId = .ok s) (same : r'.schemaId = r.schemaId)
    {text text' : String} (h : w.factAtom r = .ok text) (h' : w.factAtom r' = .ok text') :
    ∃ vs vs', r.toTerms s = .ok vs ∧ r'.toTerms s = .ok vs' ∧ vs.length = s.arity ∧
      (text = text' ↔ List.Forall₂ Value.SharesTerm vs vs') := by
  obtain ⟨vs, xs, terms, written, atom⟩ := exists_of_factAtom found h
  obtain ⟨vs', xs', terms', written', atom'⟩ := exists_of_factAtom (same ▸ found) h'
  have length := Record.length_of_toTerms terms
  have length' := Record.length_of_toTerms terms'
  refine ⟨vs, vs', terms, terms', length, ?_⟩
  rw [← Value.toTerms_eq_toTerms_iff written written']
  constructor
  · rintro rfl
    have delimited := Value.delimited_of_toTerms written written' (length.trans length'.symm)
    exact atom_schema_inj delimited atom atom'
  · rintro rfl
    exact Except.ok.inj (atom.symm.trans atom')

end Writer

/-! ### Labels -/

/-- Things that are labelled with values of any kind. -/
def FactSchema.labelled : FactSchema where
  name := "labelled"
  signature := ⟨[⟨"thing", "string", some .key, none⟩, ⟨"label", "any", none, none⟩], by decide⟩
  keyFields := ["thing"]
  keyFields_subset := by decide
  description := none
  mergePolicy := .latest
  id := _
  id_eq := rfl

/-- A thing with a comma and a parenthesis in its name is labelled with a value. -/
def Record.labelled (label : Value) : Record where
  schemaId := FactSchema.labelled.id
  identity := .entity (Identifier.entity FactSchema.labelled.id [("thing", .str "a, b)")])
  props := .ofList [("thing", .str "a, b)"), ("label", label)]
  prob := none
  metadata := .empty
  recordId := none

theorem Record.toTerms_labelled : ∀ label ∈ [Value.bool true, .str "true"],
    (Record.labelled label).toTerms (.fact .labelled) = .ok [.str "a, b)", label] := by
  intro label mem
  refine toTerms_eq_ok_iff.2 ⟨rfl, nofun, ?_⟩
  revert label
  decide +kernel

namespace Writer

/-- A writer of facts about labels in Prolog. -/
def labelling : Writer :=
  .plain ⟨fun _ => .ok (.fact .labelled), none, none, .default⟩ "prolog" .arrow

theorem factAtom_labelled : ∀ label ∈ [Value.bool true, .str "true"],
    labelling.factAtom (.labelled label) = .ok "labelled(\x27a, b)\x27, true)" := by
  intro label mem
  show (Except.mapError RenderError.schema ((Record.labelled label).toTerms (.fact .labelled))
    >>= _) = _
  rw [Record.toTerms_labelled label mem]
  revert label
  decide +kernel

theorem factAtom_eq_factAtom_iff_labelled :
    labelling.context.source (Record.labelled (.bool true)).schemaId = .ok (.fact .labelled) ∧
    (Record.labelled (.str "true")).schemaId = (Record.labelled (.bool true)).schemaId ∧
    (∃ text, labelling.factAtom (.labelled (.bool true)) = .ok text ∧
      labelling.factAtom (.labelled (.str "true")) = .ok text) ∧
    ∃ vs vs', (Record.labelled (.bool true)).toTerms (.fact .labelled) = .ok vs ∧
      (Record.labelled (.str "true")).toTerms (.fact .labelled) = .ok vs' ∧ vs ≠ vs' ∧
      List.Forall₂ Value.SharesTerm vs vs' := by
  have written := factAtom_labelled (.bool true) (.head _)
  have written' := factAtom_labelled (.str "true") (.tail _ (.head _))
  have same : (Record.labelled (.str "true")).schemaId =
      (Record.labelled (.bool true)).schemaId := rfl
  obtain ⟨vs, vs', terms, terms', -, alike⟩ :=
    factAtom_eq_factAtom_iff (s := .fact .labelled) rfl same written written'
  refine ⟨rfl, same, ⟨_, written, written'⟩, vs, vs', terms, terms', ?_, alike.1 rfl⟩
  rintro rfl
  have labels := (Record.toTerms_labelled _ (.head _)).symm.trans terms
  have labels' := (Record.toTerms_labelled _ (.tail _ (.head _))).symm.trans terms'
  exact absurd (Except.ok.inj (labels.trans labels'.symm)) (by decide)

end Writer

end Clausal
