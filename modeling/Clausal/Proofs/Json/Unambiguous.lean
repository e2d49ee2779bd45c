import Clausal.Json.Canonical
import Clausal.Proofs.Json.Reading
import Clausal.Proofs.Maps

/-!
# Canonical texts are unambiguous

The canonical text of a value is the compact text of the value with all members in order (`sorted`).
Texts are read in one way only, so values with one canonical text are equal up to the order of
members (`sorted_eq_of_canonical_eq`).
-/

namespace Clausal

namespace Document

mutual

theorem ofJson_injective {i j : Json} (h : ofJson i = ofJson j) : i = j := by
  match i with
  | .null | .bool _ | .num _ | .str _ =>
    cases j <;> cases h
    rfl
  | .arr items =>
    cases j with
    | arr items' => exact congrArg _ (ofItems_injective (arr.inj h))
    | _ => cases h
  | .obj members =>
    cases j with
    | obj members' => exact congrArg _ (ofMembers_injective (obj.inj h))
    | _ => cases h

theorem ofItems_injective {items items' : List Json} (h : ofItems items = ofItems items') :
    items = items' := by
  match items, items' with
  | [], [] => rfl
  | item :: rest, item' :: rest' =>
    obtain ⟨first, others⟩ := List.cons.inj h
    rw [ofJson_injective first, ofItems_injective others]

theorem ofMembers_injective {members members' : List (String × Json)}
    (h : ofMembers members = ofMembers members') : members = members' := by
  match members, members' with
  | [], [] => rfl
  | (key, value) :: rest, (key', value') :: rest' =>
    obtain ⟨member, others⟩ := List.cons.inj h
    obtain ⟨rfl, first⟩ := Prod.mk.inj member
    rw [ofJson_injective first, ofMembers_injective others]

end

end Document

namespace Json

/-! ### Sorting members -/

mutual

/-- The value with the members of every object in the order of their keys. -/
def sorted : Json → Json
  | .arr items => .arr (sortedItems items)
  | .obj members => .obj (sortByKey (sortedMembers members))
  | j => j

def sortedItems : List Json → List Json
  | [] => []
  | item :: rest => sorted item :: sortedItems rest

def sortedMembers : List (String × Json) → List (String × Json)
  | [] => []
  | (key, value) :: rest => (key, sorted value) :: sortedMembers rest

end

theorem sortedItems_eq_map (items : List Json) : sortedItems items = items.map sorted := by
  induction items with
  | nil => rfl
  | cons item rest ih => rw [sortedItems, ih, List.map_cons]

theorem sortedMembers_eq_map (members : List (String × Json)) :
    sortedMembers members = members.map fun m => (m.1, m.2.sorted) := by
  induction members with
  | nil => rfl
  | cons m rest ih => rw [sortedMembers, ih, List.map_cons]

theorem compactMembers_eq_map (members : List (String × Json)) :
    compactMembers members =
      (members.map fun m => (m.1, compactChars m.2)).map canonicalMember := by
  induction members with
  | nil => rfl
  | cons m rest ih =>
    rw [compactMembers, ih]
    rfl

/-- Sorting looks at the keys only. -/
theorem sortByKey_map {α β : Type} (f : α → β) (pairs : List (String × α)) :
    sortByKey (pairs.map fun p => (p.1, f p.2)) = (sortByKey pairs).map fun p => (p.1, f p.2) :=
  (List.map_mergeSort (f := fun p : String × α => (p.1, f p.2)) fun _ _ _ _ => rfl).symm

theorem perm_sortByKey {α : Type} (pairs : List (String × α)) : (sortByKey pairs).Perm pairs :=
  List.mergeSort_perm ..

mutual

theorem canonicalChars_eq_compactChars (j : Json) : canonicalChars j = compactChars j.sorted := by
  match j with
  | .null | .bool _ | .num _ | .str _ => rfl
  | .arr items => rw [canonicalChars, sorted, compactChars, canonicalItems_eq_compactItems]
  | .obj members =>
    rw [canonicalChars, sorted, compactChars, canonicalMembers_eq_map, sortByKey_map,
      compactMembers_eq_map]

theorem canonicalItems_eq_compactItems (items : List Json) :
    canonicalItems items = compactItems (sortedItems items) := by
  match items with
  | [] => rfl
  | item :: rest =>
    rw [canonicalItems, sortedItems, compactItems, canonicalChars_eq_compactChars,
      canonicalItems_eq_compactItems]

theorem canonicalMembers_eq_map (members : List (String × Json)) :
    canonicalMembers members =
      (sortedMembers members).map fun m => (m.1, compactChars m.2) := by
  match members with
  | [] => rfl
  | (key, value) :: rest =>
    rw [canonicalMembers, sortedMembers, List.map_cons, canonicalChars_eq_compactChars,
      canonicalMembers_eq_map]

end

variable {P : Number → Prop}

mutual

theorem HasNumbers.sorted {j : Json} (h : j.HasNumbers P) : j.sorted.HasNumbers P := by
  match j with
  | .null | .bool _ | .num _ | .str _ => exact h
  | .arr items => exact HaveNumbers.sorted h
  | .obj members =>
    have values := haveNumbersInValues_iff.1 (HaveNumbersInValues.sorted h)
    exact haveNumbersInValues_iff.2 fun m hm => values m ((perm_sortByKey _).mem_iff.1 hm)

theorem HaveNumbers.sorted {items : List Json} (h : HaveNumbers P items) :
    HaveNumbers P (sortedItems items) := by
  match items with
  | [] => trivial
  | item :: rest => exact ⟨HasNumbers.sorted h.1, HaveNumbers.sorted h.2⟩

theorem HaveNumbersInValues.sorted {members : List (String × Json)}
    (h : HaveNumbersInValues P members) : HaveNumbersInValues P (sortedMembers members) := by
  match members with
  | [] => trivial
  | (_, value) :: rest => exact ⟨HasNumbers.sorted h.1, HaveNumbersInValues.sorted h.2⟩

end

/-- Values with one canonical text are equal up to the order of members. -/
theorem sorted_eq_of_canonical_eq {i j : Json} (hi : i.HasNumbers Document.ReadsBack)
    (hj : j.HasNumbers Document.ReadsBack) (h : i.canonical = j.canonical) : i.sorted = j.sorted := by
  have same : spread .none 0 i.sorted = spread .none 0 j.sorted := by
    rw [← compactChars_eq_spread, ← compactChars_eq_spread, ← canonicalChars_eq_compactChars,
      ← canonicalChars_eq_compactChars]
    simpa [canonical] using congrArg String.toList h
  have readI := Document.readValue_spread .none i.sorted _ _ 0 [] hi.sorted
    (Nat.le_max_left _ (Document.ofJson j.sorted).height) le_rfl nofun
  have readJ := Document.readValue_spread .none j.sorted _ _ 0 [] hj.sorted
    (Nat.le_max_right (Document.ofJson i.sorted).height _) le_rfl nofun
  rw [same, readJ] at readI
  exact Document.ofJson_injective (congrArg Prod.fst (Option.some.inj readI)).symm

/-- Objects that are equal up to the order of members have the same value at a key. -/
theorem sorted_value_eq {members members' : List (String × Json)}
    (h : (obj members).sorted = (obj members').sorted) (distinct : (members'.map (·.1)).Nodup)
    {key : String} {value value' : Json} (mem : (key, value) ∈ members)
    (mem' : (key, value') ∈ members') : value.sorted = value'.sorted := by
  have perm : (sortedMembers members).Perm (sortedMembers members') :=
    (perm_sortByKey _).symm.trans (obj.inj h ▸ perm_sortByKey _)
  have sorted_mem {l : List (String × Json)} {v : Json} (mem : (key, v) ∈ l) :
      (key, v.sorted) ∈ sortedMembers l := by
    rw [sortedMembers_eq_map]
    exact List.mem_map.2 ⟨_, mem, rfl⟩
  have distinct : ((sortedMembers members').map (·.1)).Nodup := by
    rw [sortedMembers_eq_map, List.map_map]
    exact distinct
  have found := (SortedMap.lookup_eq_some_iff distinct).2 (perm.mem_iff.1 (sorted_mem mem))
  have found' := (SortedMap.lookup_eq_some_iff distinct).2 (sorted_mem mem')
  exact Option.some.inj (found.symm.trans found')

/-- The same for members that are listed in the same place. -/
theorem sorted_value_eq_at {members members' : List (String × Json)}
    (h : (obj members).sorted = (obj members').sorted) (distinct : (members'.map (·.1)).Nodup)
    (place : Nat) {key : String} {value value' : Json} (listed : members[place]? = some (key, value))
    (listed' : members'[place]? = some (key, value')) : value.sorted = value'.sorted :=
  sorted_value_eq h distinct (List.mem_of_getElem? listed) (List.mem_of_getElem? listed')

end Json

end Clausal
