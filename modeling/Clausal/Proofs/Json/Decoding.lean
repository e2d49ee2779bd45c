import Clausal.Json.Decode
import Clausal.Proofs.Maps
import Clausal.Proofs.Outcomes

/-!
# Decoding what was encoded

`Decoder.Reads value j a` says that a decoder takes the document of `j` to `a`. There is one lemma
for each decoder of scalars, lists and maps, and one for each way to take a field of a record; the
decoders of payloads are put together from them.
-/

namespace Clausal

namespace Json

theorem str_ne_null (s : String) : str s ≠ null := nofun

theorem num_ne_null (n : Number) : num n ≠ null := nofun

theorem arr_ne_null (items : List Json) : arr items ≠ null := nofun

theorem obj_ne_null (members : List (String × Json)) : obj members ≠ null := nofun

theorem ofFloat_of_isFinite {x : Binary64} (h : x.isFinite = true) : ofFloat x = num (.float x) :=
  if_pos h

theorem ofFloat_ne_null {x : Binary64} (h : x.isFinite = true) : ofFloat x ≠ null :=
  ofFloat_of_isFinite h ▸ num_ne_null _

theorem lookup_member? (key name : String) (value : Option Json) :
    (member? key value).lookup name = if name == key then value else none := by
  cases value with
  | none => simp [member?]
  | some v => cases h : name == key <;> simp [member?, List.lookup_cons, h]

theorem keys_member? (key : String) (value : Option Json) :
    ((member? key value).map (·.1)).Sublist [key] := by
  cases value <;> simp [member?]

theorem keys_member?_append (key : String) (value : Option Json) {members : List (String × Json)}
    {keys : List String} (h : (members.map (·.1)).Sublist keys) :
    ((member? key value ++ members).map (·.1)).Sublist (key :: keys) := by
  rw [List.map_append]
  exact (keys_member? key value).append h

theorem forall_mem_member? {key : String} {value : Option Json} {P : String × Json → Prop} :
    (∀ m ∈ member? key value, P m) ↔ ∀ v ∈ value, P (key, v) := by
  cases value <;> simp [member?]

theorem forall_mem_member?_map {α : Type} {key : String} {x : Option α} {f : α → Json}
    {P : String × Json → Prop} :
    (∀ m ∈ member? key (x.map f), P m) ↔ ∀ a ∈ x, P (key, f a) := by
  cases x <;> simp [member?]

end Json

/-! ### Documents of values -/

namespace Document

theorem ofItems_eq_map (items : List Json) : ofItems items = items.map ofJson := by
  induction items with
  | nil => rfl
  | cons item rest ih => rw [ofItems, ih, List.map_cons]

theorem ofMembers_eq_map (members : List (String × Json)) :
    ofMembers members = members.map fun m => (m.1, ofJson m.2) := by
  induction members with
  | nil => rfl
  | cons m rest ih => rw [ofMembers, ih, List.map_cons]

mutual

theorem isSound_ofJson (j : Json) : (ofJson j).isSound = true := by
  match j with
  | .null | .bool _ | .num _ | .str _ => rfl
  | .arr items => exact areSound_ofItems items
  | .obj members => exact haveSoundValues_ofMembers members

theorem areSound_ofItems (items : List Json) : areSound (ofItems items) = true := by
  match items with
  | [] => rfl
  | item :: rest =>
    rw [ofItems, areSound, isSound_ofJson item, areSound_ofItems rest]
    rfl

theorem haveSoundValues_ofMembers (members : List (String × Json)) :
    haveSoundValues (ofMembers members) = true := by
  match members with
  | [] => rfl
  | (key, value) :: rest =>
    rw [ofMembers, haveSoundValues, isSound_ofJson value, haveSoundValues_ofMembers rest]
    rfl

end

end Document

mutual

/-- The members of every object come in the order of their keys, and no key is repeated. -/
def Json.IsOrdered : Json → Prop
  | .arr items => AreOrdered items
  | .obj members =>
    members.Pairwise (fun a b => compare a.1 b.1 = .lt) ∧ HaveOrderedValues members
  | _ => True

def Json.AreOrdered : List Json → Prop
  | [] => True
  | item :: rest => item.IsOrdered ∧ AreOrdered rest

def Json.HaveOrderedValues : List (String × Json) → Prop
  | [] => True
  | (_, value) :: rest => value.IsOrdered ∧ HaveOrderedValues rest

end

namespace Document

mutual

/-- An ordered value is what its document stands for. -/
theorem value?_ofJson {j : Json} (h : j.IsOrdered) : (ofJson j).value? = some j := by
  match j with
  | .null | .bool _ | .num _ | .str _ => rfl
  | .arr items => rw [ofJson, value?, itemValues?_ofItems h, Option.map_some]
  | .obj members =>
    obtain ⟨increasing, values⟩ := h
    rw [ofJson, value?, memberValues?_ofMembers values, Option.map_some]
    rw [SortedMap.ofList_entries ⟨members, increasing⟩]

theorem itemValues?_ofItems {items : List Json} (h : Json.AreOrdered items) :
    itemValues? (ofItems items) = some items := by
  match items with
  | [] => rfl
  | item :: rest =>
    rw [ofItems, itemValues?, value?_ofJson h.1, itemValues?_ofItems h.2]
    rfl

theorem memberValues?_ofMembers {members : List (String × Json)}
    (h : Json.HaveOrderedValues members) : memberValues? (ofMembers members) = some members := by
  match members with
  | [] => rfl
  | (key, value) :: rest =>
    rw [ofMembers, memberValues?, value?_ofJson h.1, memberValues?_ofMembers h.2]
    rfl

end

end Document

namespace Json

theorem areOrdered_iff {items : List Json} :
    AreOrdered items ↔ ∀ item ∈ items, item.IsOrdered := by
  induction items with
  | nil => simp [AreOrdered]
  | cons item rest ih => rw [AreOrdered, ih, List.forall_mem_cons]

theorem haveOrderedValues_iff {members : List (String × Json)} :
    HaveOrderedValues members ↔ ∀ m ∈ members, m.2.IsOrdered := by
  induction members with
  | nil => simp [HaveOrderedValues]
  | cons m rest ih => rw [HaveOrderedValues, ih, List.forall_mem_cons]

end Json

namespace Document

mutual

/-- What a document stands for is ordered. -/
theorem isOrdered_of_value? {d : Document} {j : Json} (h : d.value? = some j) : j.IsOrdered := by
  match d with
  | .null | .bool _ | .num _ | .str _ =>
    cases h
    trivial
  | .fault _ => cases h
  | .arr items =>
    obtain ⟨values, read, rfl⟩ := Option.map_eq_some_iff.1 h
    exact Json.areOrdered_iff.2 (areOrdered_of_itemValues? read)
  | .obj members =>
    obtain ⟨values, read, rfl⟩ := Option.map_eq_some_iff.1 h
    refine ⟨(SortedMap.ofList values).increasing, Json.haveOrderedValues_iff.2 fun m hm => ?_⟩
    exact areOrdered_of_memberValues? read m (SortedMap.mem_of_mem_ofList hm)

theorem areOrdered_of_itemValues? {items : List Document} {values : List Json}
    (h : itemValues? items = some values) : ∀ v ∈ values, v.IsOrdered := by
  match items with
  | [] =>
    cases h
    nofun
  | item :: rest =>
    obtain ⟨first, read, h⟩ := Option.bind_eq_some_iff.1 h
    obtain ⟨others, readRest, h⟩ := Option.bind_eq_some_iff.1 h
    cases h
    exact List.forall_mem_cons.2 ⟨isOrdered_of_value? read, areOrdered_of_itemValues? readRest⟩

theorem areOrdered_of_memberValues? {members : List (String × Document)}
    {values : List (String × Json)} (h : memberValues? members = some values) :
    ∀ v ∈ values, v.2.IsOrdered := by
  match members with
  | [] =>
    cases h
    nofun
  | (key, value) :: rest =>
    obtain ⟨first, read, h⟩ := Option.bind_eq_some_iff.1 h
    obtain ⟨others, readRest, h⟩ := Option.bind_eq_some_iff.1 h
    cases h
    exact List.forall_mem_cons.2 ⟨isOrdered_of_value? read, areOrdered_of_memberValues? readRest⟩

end

end Document

/-! ### Decoders -/

/-- The decoder takes the document of `j` to `a`, held back or not. -/
def Decoder.Reads {α : Type} (value : Decoder α) (j : Json) (a : α) : Prop :=
  ∀ r, value r (Document.ofJson j) = .ok a

theorem Decoder.Reads.ofJson {α : Type} {value : Decoder α} {j : Json} {a : α}
    (h : value.Reads j a) : Decode.ofJson value j = .ok a := h .direct

namespace Decode

section Scalars

theorem text_reads (s : String) : text.Reads (.str s) s := fun _ => rfl

theorem bool_reads (b : Bool) : bool.Reads (.bool b) b := fun _ => rfl

theorem natBelow_reads {bound n : Nat} (expected : String) (h : n < bound) :
    (natBelow bound expected).Reads (.ofNat n) n := by
  intro r
  have inside : 0 ≤ (n : Int) ∧ (n : Int) < bound := by omega
  simp only [Document.ofJson, Json.ofNat, natBelow, if_pos inside, Int.toNat_natCast]

theorem count_reads {n : Nat} (h : n < UInt64.size) : count.Reads (.ofNat n) n :=
  natBelow_reads "usize" h

theorem float_reads {x : Binary64} (h : x.isFinite = true) : float.Reads (.ofFloat x) x := by
  intro r
  rw [Json.ofFloat_of_isFinite h]
  rfl

theorem json_reads {j : Json} (h : j.IsOrdered) : json.Reads j j := by
  intro r
  simp only [json, Document.value?_ofJson h]

theorem word_reads {α : Type} {words : List (String × α)} {s : String} {a : α}
    (h : words.lookup s = some a) : (word words).Reads (.str s) a := by
  intro r
  simp only [Document.ofJson, word, findWord, h]

end Scalars

section Containers

variable {α : Type} {value : Decoder α}

theorem list_reads {xs : List α} {f : α → Json} (h : ∀ x ∈ xs, value.Reads (f x) x) :
    (list value).Reads (.arr (xs.map f)) xs := by
  intro r
  have items := mapM_map_eq_ok (g := Document.ofJson ∘ f) (h := id) fun x hx => h x hx r
  rw [Document.ofJson, list, Document.ofItems_eq_map, List.map_map, items, List.map_id]

theorem texts_reads (xs : List String) : (list text).Reads (.ofStrings xs) xs :=
  list_reads fun x _ => text_reads x

theorem map_reads {m : SortedMap String α} {f : α → Json}
    (h : ∀ e ∈ m.entries, value.Reads (f e.2) e.2) :
    (map value).Reads (.obj (m.mapValues f).entries) m := by
  intro r
  have entries : ((m.mapValues f).entries.map fun e => (e.1, Document.ofJson e.2)) =
      m.entries.map fun e => (e.1, Document.ofJson (f e.2)) := List.map_map
  rw [Document.ofJson, map, Document.ofMembers_eq_map, entries, mapM_map_eq_ok (h := id)]
  · rw [List.map_id]
    exact congrArg Except.ok m.ofList_entries
  · intro e he
    rw [h e he r]
    rfl

theorem map_json_reads {m : SortedMap String Json} (ordered : ∀ e ∈ m.entries, e.2.IsOrdered) :
    (map json).Reads (.obj m.entries) m := by
  have unchanged : (m.mapValues fun j => j).entries = m.entries := List.map_id _
  exact unchanged ▸ map_reads fun e he => json_reads (ordered e he)

theorem isOrdered_of_json {r : Reading} {d : Document} {j : Json} (h : json r d = .ok j) :
    j.IsOrdered := by
  cases found : d.value? with
  | none => simp [json, found] at h
  | some j' =>
    simp only [json, found, Except.ok.injEq] at h
    exact h ▸ Document.isOrdered_of_value? found

/-- The values of a map of JSON values are ordered. -/
theorem isOrdered_of_map {r : Reading} {d : Document} {m : SortedMap String Json}
    (h : map json r d = .ok m) : ∀ e ∈ m.entries, e.2.IsOrdered := by
  unfold map at h
  split at h
  · obtain ⟨entries, read, h⟩ := bind_eq_ok.1 h
    cases h
    have each := forall_of_mapM (P := fun e : String × Json => e.2.IsOrdered) read fun m e taken => by
      obtain ⟨j, found, eq⟩ := bind_eq_ok.1 taken
      exact Except.ok.inj eq ▸ isOrdered_of_json found
    exact fun e he => each e (SortedMap.mem_of_mem_ofList he)
  · cases h

theorem nullable_reads {j : Json} {a : α} (reads : value.Reads j a) (ne : j ≠ .null) :
    (nullable value).Reads j (some a) := by
  intro r
  have read : some <$> value r (Document.ofJson j) = .ok (some a) := by
    rw [reads r]
    rfl
  cases j with
  | null => exact absurd rfl ne
  | _ => exact read

theorem of_nullable {r : Reading} {d : Document} {a : α}
    (h : nullable value r d = .ok (some a)) : value r d = .ok a := by
  unfold nullable at h
  split at h
  · cases h
  · obtain ⟨b, read, eq⟩ := bind_eq_ok.1 ((map_eq_pure_bind ..).symm.trans h)
    cases eq
    exact read

end Containers

/-! ### Records -/

/-- The members of a record are all declared, and none is repeated. -/
theorem declaredMembers_eq_ok {fields : List Field} {isClosed : Bool}
    {members : List (String × Document)} (distinct : (members.map (·.1)).Nodup)
    (plain : ∀ m ∈ members, declaredName? fields m.1 = some m.1) :
    declaredMembers fields isClosed members = .ok members := by
  induction members with
  | nil => rfl
  | cons m rest ih =>
    obtain ⟨new, distinct⟩ := List.nodup_cons.1 distinct
    have others := ih distinct fun x hx => plain x (List.mem_cons_of_mem _ hx)
    -- the key does not come again, so it is no duplicate of an entry of the rest
    have fresh : rest.any (·.1 == m.1) = false := by
      rw [List.any_eq_false]
      intro x hx eq
      exact new (List.mem_map.2 ⟨x, hx, beq_iff_eq.1 eq⟩)
    obtain ⟨key, value⟩ := m
    simp only [declaredMembers, plain _ List.mem_cons_self, others, bind, Except.bind, fresh,
      Bool.false_eq_true, if_false]

/-- Members that are not declared are skipped. -/
theorem declaredMembers_append {fields : List Field} {others members : List (String × Document)}
    (skipped : ∀ m ∈ others, declaredName? fields m.1 = none) :
    declaredMembers fields false (others ++ members) = declaredMembers fields false members := by
  induction others with
  | nil => rfl
  | cons m rest ih =>
    obtain ⟨key, value⟩ := m
    have first : declaredName? fields key = none := skipped _ List.mem_cons_self
    simp only [List.cons_append, declaredMembers, first, Bool.false_eq_true, if_false]
    exact ih fun x hx => skipped x (List.mem_cons_of_mem _ hx)

theorem record_ofJson {title : String} {fields : List Field} {isClosed : Bool} {r : Reading}
    {members : List (String × Json)} (distinct : (members.map (·.1)).Nodup)
    (plain : ∀ m ∈ members, declaredName? fields m.1 = some m.1) :
    record title fields isClosed r (Document.ofJson (.obj members)) =
      .ok ⟨r, Document.ofMembers members⟩ := by
  have declared : declaredMembers fields isClosed (Document.ofMembers members) =
      .ok (Document.ofMembers members) := by
    rw [Document.ofMembers_eq_map]
    refine declaredMembers_eq_ok (by simpa [Function.comp_def] using distinct) fun m hm => ?_
    obtain ⟨m', hm', rfl⟩ := List.mem_map.1 hm
    exact plain m' hm'
  rw [Document.ofJson, record, declared]
  rfl

/-- A record whose members come in the order in which its fields are declared. -/
theorem record_of_sublist {title : String} {fields : List Field} {isClosed : Bool} {r : Reading}
    {members : List (String × Json)} (keys : (members.map (·.1)).Sublist (fields.map (·.name)))
    (distinct : (fields.map (·.name)).Nodup)
    (plain : ∀ f ∈ fields, declaredName? fields f.name = some f.name) :
    record title fields isClosed r (Document.ofJson (.obj members)) =
      .ok ⟨r, Document.ofMembers members⟩ := by
  refine record_ofJson (distinct.sublist keys) fun m hm => ?_
  obtain ⟨f, hf, eq⟩ := List.mem_map.1 (keys.subset (List.mem_map_of_mem hm))
  exact eq ▸ plain f hf

namespace Members

variable {α : Type} {value : Decoder α} {r : Reading} {members : List (String × Json)}
  {name : String} {j : Json} {a : α}

theorem get?_ofMembers :
    (⟨r, Document.ofMembers members⟩ : Members).get? name =
      (members.lookup name).map Document.ofJson := by
  rw [get?, Document.ofMembers_eq_map]
  induction members with
  | nil => rfl
  | cons m rest ih =>
    rw [List.map_cons, List.lookup_cons, List.lookup_cons, ih]
    cases name == m.1 <;> rfl

theorem required_ok (found : members.lookup name = some j) (reads : value.Reads j a) :
    (⟨r, Document.ofMembers members⟩ : Members).required name value = .ok a := by
  rw [required, get?_ofMembers, found]
  exact reads r

theorem withDefault_ok {default : α} (found : members.lookup name = some j)
    (reads : value.Reads j a) :
    (⟨r, Document.ofMembers members⟩ : Members).withDefault name default value = .ok a := by
  rw [withDefault, get?_ofMembers, found]
  exact reads r

theorem withDefault_missing {default : α} (missing : members.lookup name = none) :
    (⟨r, Document.ofMembers members⟩ : Members).withDefault name default value = .ok default := by
  rw [withDefault, get?_ofMembers, missing]
  rfl

theorem optional_ok {x : Option α} {f : α → Json} (found : members.lookup name = x.map f)
    (reads : ∀ a ∈ x, value.Reads (f a) a ∧ f a ≠ .null) :
    (⟨r, Document.ofMembers members⟩ : Members).optional name value = .ok x := by
  cases x with
  | none => exact withDefault_missing found
  | some a => exact withDefault_ok found (nullable_reads (reads a rfl).1 (reads a rfl).2)

/-- A field that is written as null when it has no value. -/
theorem optional_or_null {x : Option α} {f : α → Json}
    (found : members.lookup name = some (x.elim .null f))
    (reads : ∀ a ∈ x, value.Reads (f a) a ∧ f a ≠ .null) :
    (⟨r, Document.ofMembers members⟩ : Members).optional name value = .ok x := by
  cases x with
  | none => exact withDefault_ok found fun _ => rfl
  | some a => exact withDefault_ok found (nullable_reads (reads a rfl).1 (reads a rfl).2)

/-- An optional field that has a value has it from a document. -/
theorem exists_of_optional {m : Members} (h : m.optional name value = .ok (some a)) :
    ∃ d, value m.reading d = .ok a := by
  unfold Members.optional withDefault at h
  split at h
  case h_1 d found => exact ⟨d, of_nullable h⟩
  case h_2 => cases h

theorem required_text {s : String} (found : members.lookup name = some (.str s)) :
    (⟨r, Document.ofMembers members⟩ : Members).required name text = .ok s :=
  required_ok found (text_reads s)

theorem optional_text {x : Option String} (found : members.lookup name = x.map .str) :
    (⟨r, Document.ofMembers members⟩ : Members).optional name text = .ok x :=
  optional_ok found fun s _ => ⟨text_reads s, Json.str_ne_null s⟩

theorem optional_count {x : Option Nat} (found : members.lookup name = x.map .ofNat)
    (below : ∀ n ∈ x, n < UInt64.size) :
    (⟨r, Document.ofMembers members⟩ : Members).optional name count = .ok x :=
  optional_ok found fun n hn => ⟨count_reads (below n hn), Json.num_ne_null _⟩

theorem optional_word {words : List (String × α)} {s : α → String}
    (words_lookup : ∀ a, words.lookup (s a) = some a) {x : Option α}
    (found : members.lookup name = x.map fun a => .str (s a)) :
    (⟨r, Document.ofMembers members⟩ : Members).optional name (word words) = .ok x :=
  optional_ok found fun a _ => ⟨word_reads (words_lookup a), Json.str_ne_null _⟩

end Members

/-! ### Tagged values -/

theorem tagged_ofJson {tag t : String} {tags : List String} {r : Reading}
    {members : List (String × Json)} (known : t ∈ tags) (apart : ∀ m ∈ members, m.1 ≠ tag) :
    tagged tag tags r (Document.ofJson (.obj ((tag, .str t) :: members))) =
      .ok (t, Document.ofJson (.obj members)) := by
  have others : ∀ m ∈ Document.ofMembers members, m.1 ≠ tag := by
    rw [Document.ofMembers_eq_map]
    intro m hm
    obtain ⟨m', hm', rfl⟩ := List.mem_map.1 hm
    exact apart m' hm'
  have tagsFound : ((tag, Document.str t) :: Document.ofMembers members).filter (·.1 == tag) =
      [(tag, .str t)] := by
    rw [List.filter_cons_of_pos (by simp), List.filter_eq_nil_iff.2 fun m hm => by simp [others m hm]]
  have bodyFound : ((tag, Document.str t) :: Document.ofMembers members).filter (·.1 != tag) =
      Document.ofMembers members := by
    rw [List.filter_cons_of_neg (by simp), List.filter_eq_self.2 fun m hm => by simp [others m hm]]
  simp only [tagged, Document.isSound_ofJson, Bool.not_true, Bool.false_eq_true, if_false]
  simp only [Document.ofJson, Document.ofMembers, tagsFound, bodyFound, tagName, if_pos known, bind,
    Except.bind, pure, Except.pure]

/-- A tag before members with known keys, the tag not among them. -/
theorem tagged_of_sublist {tag t : String} {tags keys : List String} {r : Reading}
    {members : List (String × Json)} (sublist : (members.map (·.1)).Sublist keys)
    (known : t ∈ tags) (apart : tag ∉ keys) :
    tagged tag tags r (Document.ofJson (.obj ((tag, .str t) :: members))) =
      .ok (t, Document.ofJson (.obj members)) :=
  tagged_ofJson known fun _ hm eq => apart (eq ▸ sublist.subset (List.mem_map_of_mem hm))

end Decode

end Clausal
