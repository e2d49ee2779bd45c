import Clausal.Proofs.Schema.Normal
import Mathlib.Data.List.Forall2

/-!
# Arguments in shorthand

Main statement: `Schema.ofPayload_respelled`. A stored argument that is written out can be replaced by
a shorthand, and the payload is loaded as before. A shorthand is not resolved to the very same spec,
since blanks around a datatype are cut off when it is read; but specs with the same settled form
(`ArgSpec.settled`) resolve to one signature (`Signature.resolve_settled`).
-/

namespace Clausal

/-! ### Names and datatypes in a shorthand -/

namespace Text

theorem splitAtFirst?_append {sep : Char} {before : List Char} (h : sep ∉ before)
    (after : List Char) : splitAtFirst? sep (before ++ sep :: after) = some (before, after) := by
  induction before with
  | nil => rw [List.nil_append, splitAtFirst?, if_pos rfl]
  | cons c rest ih =>
    rw [List.mem_cons, not_or] at h
    rw [List.cons_append, splitAtFirst?, if_neg (Ne.symm h.1), ih h.2]
    rfl

theorem splitAtFirst?_eq_none {sep : Char} {cs : List Char} (h : sep ∉ cs) :
    splitAtFirst? sep cs = none := by
  induction cs with
  | nil => rfl
  | cons c rest ih =>
    rw [List.mem_cons, not_or] at h
    rw [splitAtFirst?, if_neg (Ne.symm h.1), ih h.2]
    rfl

end Text

namespace Datatype

theorem normalize_trim (datatype : String) : normalize (Text.trim datatype) = normalize datatype := by
  rw [normalize, Text.trim_trim, normalize]

theorem isKnown_trim (datatype : String) : isKnown (Text.trim datatype) = isKnown datatype := by
  rw [isKnown, normalize_trim, isKnown]

/-- The names of the known datatypes have no colon, and neither have their other spellings. -/
theorem colon_not_mem_of_isKnown {datatype : String} (known : isKnown datatype = true) :
    ':' ∉ Text.trimChars datatype.toList := by
  have letters : ∀ word ∈ Datatype.known, ':' ∉ word.toList := by decide
  intro mem
  have kept : ':' ∈ (normalize datatype).toList := by
    rw [normalize, Text.lower, Text.trim, String.toList_ofList, String.toList_ofList]
    exact List.mem_map.2 ⟨':', mem, by decide⟩
  rw [isKnown, List.contains_iff_mem] at known
  exact letters _ known kept

theorem ne_blank_of_isKnown {datatype : String} (known : isKnown datatype = true) :
    Text.trim datatype ≠ "" := by
  intro blank
  rw [← isKnown_trim, blank] at known
  exact absurd known (by decide)

end Datatype

namespace ArgSpec

open Text

/-- A name that a shorthand can give: it is as it will be kept, and no colon ends it. -/
structure IsShorthandName (name : String) : Prop where
  trimmed : trim name = name
  named : name ≠ ""
  plain : ':' ∉ name.toList

theorem IsShorthandName.toList_ne_nil {name : String} (h : IsShorthandName name) :
    name.toList ≠ [] := fun none => h.named (String.toList_eq_nil_iff.1 none)

theorem trimChars_ne_nil {text : String} (h : trim text ≠ "") : trimChars text.toList ≠ [] :=
  fun none => h (by rw [trim, none])

/-- A name and a datatype, with a colon in between. -/
theorem parse_typed {name datatype : String} (h : IsShorthandName name)
    (given : trim datatype ≠ "") :
    parse (name ++ ":" ++ datatype) = .ok { blank with name := name, datatype := trim datatype } := by
  have text : trimChars (name ++ ":" ++ datatype).toList =
      name.toList ++ ':' :: datatype.toList.rdropWhile isBlank := by
    rw [String.toList_append, String.toList_append, List.append_assoc]
    exact trimChars_around (by decide) (toList_of_trim h.trimmed) h.toList_ne_nil datatype.toList
  unfold parse
  simp only [text, splitAtFirst?_append h.plain, trimChars_rdropWhile, toList_of_trim h.trimmed,
    List.isEmpty_iff, List.append_eq_nil_iff, h.toList_ne_nil, false_and, if_false, Bool.or_eq_true,
    trimChars_ne_nil given, or_self, String.ofList_toList, trim]

/-- A name alone. -/
theorem parse_name {name : String} (h : IsShorthandName name)
    (unknown : Datatype.isKnown name = false) : parse name = .ok { blank with name := name } := by
  unfold parse
  simp only [toList_of_trim h.trimmed, List.isEmpty_iff, h.toList_ne_nil, if_false,
    splitAtFirst?_eq_none h.plain, String.ofList_toList, unknown, Bool.false_eq_true]

/-- A known datatype alone. -/
theorem parse_datatype {datatype : String} (known : Datatype.isKnown datatype = true) :
    parse datatype = .ok { blank with datatype := trim datatype } := by
  have text : String.ofList (trimChars datatype.toList) = trim datatype := rfl
  unfold parse
  simp only [List.isEmpty_iff, trimChars_ne_nil (Datatype.ne_blank_of_isKnown known), if_false,
    splitAtFirst?_eq_none (Datatype.colon_not_mem_of_isKnown known), text, Datatype.isKnown_trim,
    known, if_true]

/-! ### Specs that resolve to one argument -/

/-- The spec with its datatype in the form in which it is kept. -/
def settled (s : ArgSpec) : ArgSpec :=
  { s with datatype := some (Signature.resolvedDatatype s.datatype) }

end ArgSpec

namespace Signature

theorem resolvedDatatype_trim (datatype : String) :
    resolvedDatatype (some (Text.trim datatype)) = resolvedDatatype (some datatype) := by
  simp only [resolvedDatatype, Option.getD_some, Datatype.normalize_trim]

theorem explicitNames_settled (predicate : String) (taken : List String) (specs : List ArgSpec) :
    explicitNames predicate taken (specs.map ArgSpec.settled) =
      explicitNames predicate taken specs := by
  induction specs generalizing taken with
  | nil => rfl
  | cons spec rest ih => simp only [List.map_cons, explicitNames, ArgSpec.settled, ih]

theorem resolveFrom_settled (taken : List String) (position : Nat) (specs : List ArgSpec) :
    resolveFrom taken position (specs.map ArgSpec.settled) = resolveFrom taken position specs := by
  induction specs generalizing taken position with
  | nil => rfl
  | cons spec rest ih =>
    simp only [List.map_cons, resolveFrom, ArgSpec.settled, resolvedDatatype_resolvedDatatype, ih]

/-- The arguments that specs resolve to, apart from the proof that their names differ. -/
theorem args_resolve (predicate : String) (specs : List ArgSpec) :
    args <$> resolve predicate specs =
      (resolveFrom · 1 specs) <$> explicitNames predicate [] specs := by
  unfold resolve
  split
  case h_1 failed => exact (congrArg ((resolveFrom · 1 specs) <$> ·) failed).symm
  case h_2 given => exact (congrArg ((resolveFrom · 1 specs) <$> ·) given).symm

theorem map_args_injective {x y : Except SchemaError Signature} (h : args <$> x = args <$> y) :
    x = y := by
  cases x with
  | error e =>
    cases y with
    | error e' => exact congrArg _ (Except.error.inj h)
    | ok t => cases h
  | ok s =>
    cases y with
    | error e => cases h
    | ok t =>
      obtain ⟨args, _⟩ := s
      obtain ⟨args', _⟩ := t
      cases Except.ok.inj h
      rfl

/-- What is settled beforehand does not change what is resolved. -/
theorem resolve_settled (predicate : String) (specs : List ArgSpec) :
    resolve predicate (specs.map ArgSpec.settled) = resolve predicate specs := by
  refine map_args_injective ?_
  rw [args_resolve, args_resolve, explicitNames_settled]
  simp only [resolveFrom_settled]

end Signature

/-! ### Stored arguments -/

/-- `p.Respelled p'` says that `p'` is the stored argument `p`, or that `p` is written out and `p'` is
a shorthand for it. Beside a shorthand for both, the name or the datatype may be there as well. -/
inductive ArgPayload.Respelled : ArgPayload → ArgPayload → Prop
  | same {p} : Respelled p p
  | typed {n d role space} {again : Option String} {noted : Option String}
    (name : ArgSpec.IsShorthandName n) (datatype : Text.trim d ≠ "")
    (named : ∀ m ∈ again, m = n) (typed : ∀ t ∈ noted, t = d) :
    Respelled ⟨some d, role, space, some n, none⟩ ⟨noted, role, space, again, some (n ++ ":" ++ d)⟩
  | name {n role space} (name : ArgSpec.IsShorthandName n) (unknown : Datatype.isKnown n = false) :
    Respelled ⟨none, role, space, some n, none⟩ ⟨none, role, space, none, some n⟩
  | datatype {d role space} (known : Datatype.isKnown d = true) :
    Respelled ⟨some d, role, space, none, none⟩ ⟨none, role, space, none, some d⟩

namespace ArgSpec

theorem settled_trim (name : Option String) (datatype : String) (role : Option Role)
    (space : Option String) :
    settled ⟨name, some (Text.trim datatype), role, space⟩ =
      settled ⟨name, some datatype, role, space⟩ := by
  rw [settled, settled, Signature.resolvedDatatype_trim]

theorem withName_self (name : String) (datatype : Option String) :
    withName ⟨some name, datatype, none, none⟩ name = .ok ⟨some name, datatype, none, none⟩ := by
  simp only [withName, if_true]

theorem withDatatype_trim (name : Option String) (source datatype : String) :
    withDatatype ⟨name, some (Text.trim datatype), none, none⟩ source datatype =
      .ok ⟨name, some datatype, none, none⟩ := by
  have agree : Datatype.agree (Text.trim datatype) datatype = true := by
    rw [Datatype.agree, Datatype.normalize_trim, beq_self_eq_true]
  simp only [withDatatype, agree, if_true]

/-- A name and a datatype in a shorthand, with or without saying them again. -/
theorem ofPayload_typed {n d : String} (name : IsShorthandName n) (datatype : Text.trim d ≠ "")
    (role : Option Role) (space : Option String) {again noted : Option String}
    (named : ∀ m ∈ again, m = n) (typed : ∀ t ∈ noted, t = d) :
    ofPayload ⟨noted, role, space, again, some (n ++ ":" ++ d)⟩ =
      .ok ⟨some n, some (noted.getD (Text.trim d)), role, space⟩ := by
  simp only [ofPayload, parse_typed name datatype, blank]
  cases again with
  | none =>
    cases noted with
    | none => rfl
    | some t => rw [typed t rfl]; simp only [ok_bind, withDatatype_trim]; rfl
  | some m =>
    rw [named m rfl]
    simp only [withName_self, ok_bind]
    cases noted with
    | none => rfl
    | some t => rw [typed t rfl]; simp only [withDatatype_trim]; rfl

/-- A shorthand and what it stands for have one settled form. -/
theorem settled_ofPayload {p p' : ArgPayload} (h : p.Respelled p') :
    settled <$> ofPayload p' = settled <$> ofPayload p := by
  cases h with
  | same => rfl
  | @typed n d role space again noted name datatype named typed =>
    rw [ofPayload_typed name datatype role space named typed]
    cases noted with
    | none => exact congrArg Except.ok (settled_trim (some n) d role space)
    | some t => rw [typed t rfl]; rfl
  | @name n role space name unknown =>
    simp only [ofPayload, parse_name name unknown]
    rfl
  | @datatype d role space known =>
    simp only [ofPayload, parse_datatype known]
    exact congrArg Except.ok (settled_trim none d role space)

end ArgSpec

/-! ### Stored schemas -/

theorem mapM_congr_forall₂ {ε α β : Type} {f : α → Except ε β} {xs ys : List α}
    (each : List.Forall₂ (fun x y => f x = f y) xs ys) : xs.mapM f = ys.mapM f := by
  induction each with
  | nil => rfl
  | cons first _ ih => rw [List.mapM_cons, List.mapM_cons, first, ih]

namespace Schema

/-- What only depends on settled specs does not depend on how stored arguments are spelled. -/
theorem bind_respelled {β : Type} {args args' : List ArgPayload}
    (h : List.Forall₂ ArgPayload.Respelled args args') {build : List ArgSpec → Except SchemaError β}
    (settles : ∀ specs, build (specs.map ArgSpec.settled) = build specs) :
    args'.mapM ArgSpec.ofPayload >>= build = args.mapM ArgSpec.ofPayload >>= build := by
  have each (l : List ArgPayload) : l.mapM ArgSpec.ofPayload >>= build =
      l.mapM (fun p => ArgSpec.settled <$> ArgSpec.ofPayload p) >>= build := by
    rw [mapM_eq_map (h := ArgSpec.settled) fun _ => rfl]
    cases l.mapM ArgSpec.ofPayload with
    | error e => rfl
    | ok specs => exact (settles specs).symm
  have same : List.Forall₂ (fun p p' => ArgSpec.settled <$> ArgSpec.ofPayload p =
      ArgSpec.settled <$> ArgSpec.ofPayload p') args args' :=
    h.imp fun _ _ respelled => (ArgSpec.settled_ofPayload respelled).symm
  rw [each, each, mapM_congr_forall₂ same]

end Schema

/-- `p.Respelled p'` says that some arguments or props of the stored schema `p` are replaced in `p'`
by shorthands for them. -/
inductive SchemaPayload.Respelled : SchemaPayload → SchemaPayload → Prop
  | fact {p signature} (args : List.Forall₂ ArgPayload.Respelled p.signature signature) :
    Respelled (.fact p) (.fact { p with signature := signature })
  | rel {p props signature} (own : List.Forall₂ ArgPayload.Respelled p.props props)
    (listed : List.Forall₂ ArgPayload.Respelled p.signature signature) :
    Respelled (.rel p) (.rel { p with props := props, signature := signature })

namespace Schema

theorem ofContent_respelled {p p' : SchemaPayload} (h : p.Respelled p')
    (find? : String → Option Schema) : ofContent find? p' = ofContent find? p := by
  cases h with
  | @fact p signature args =>
    rw [ofContent, ofContent]
    refine bind_respelled args fun specs => ?_
    rw [FactSchema.build, FactSchema.build]
    simp only [Signature.resolve_settled]
  | @rel p props signature own listed =>
    rw [ofContent, ofContent]
    refine congrArg _ (funext fun sub => congrArg _ (funext fun obj => ?_))
    refine bind_respelled own fun specs => ?_
    rw [RelSchema.build, RelSchema.build]
    simp only [Signature.resolve_settled]

/-- **Shorthands mean what they stand for.** A payload in which some arguments or props are replaced by
shorthands for them is loaded as the same schema, or fails with the same error. -/
theorem ofPayload_respelled {p p' : SchemaPayload} (h : p.Respelled p')
    (find? : String → Option Schema) : ofPayload p' find? = ofPayload p find? := by
  have declared : checkDeclared p' = checkDeclared p := by cases h <;> rfl
  rw [ofPayload, ofPayload, ofContent_respelled h, declared]

end Schema

/-- A person as it is stored, with both arguments in shorthand. -/
def FactPayload.shortPerson : FactPayload :=
  { FactSchema.person.toPayload with
    signature := [⟨none, some .id, none, none, some "number:int"⟩,
      ⟨some "float", none, none, none, some "weight:float"⟩] }

theorem SchemaPayload.respelled_shortPerson :
    Respelled (.fact FactSchema.person.toPayload) (.fact .shortPerson) :=
  have number : ArgSpec.IsShorthandName "number" := ⟨by decide, by decide, by decide⟩
  have weight : ArgSpec.IsShorthandName "weight" := ⟨by decide, by decide, by decide⟩
  .fact (.cons (.typed number (by decide) nofun nofun)
    (.cons (.typed weight (by decide) nofun (by rintro _ ⟨⟩; rfl)) .nil))

theorem Schema.ofPayload_respelled_person :
    Schema.ofPayload (.fact .shortPerson) (fun _ => none) = .ok (.fact .person) :=
  (Schema.ofPayload_respelled SchemaPayload.respelled_shortPerson _).trans
    (Schema.ofPayload_fact FactSchema.isNormal_person _)

end Clausal
