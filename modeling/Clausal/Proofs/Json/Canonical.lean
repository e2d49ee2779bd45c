import Clausal.Proofs.Json.Floats
import Clausal.Proofs.Json.Unambiguous

/-!
# Canonical texts identify values

Main statement: `canonical_eq_canonical_iff`. Two values have one canonical text exactly when they
are equal up to the order of the members of objects, at every level (`SameUpToOrder`). Sorting the
members decides that (`sorted_eq_sorted_iff`), and the canonical text is a text of the sorted value.
-/

namespace Clausal.Json

/-! ### Values of JSON -/

/-- An integer of 64 bits, with or without sign, or a finite floating-point number. -/
def Number.IsRepresentable : Number → Prop
  | .int i => Int64.minValue.toInt ≤ i ∧ i < UInt64.size
  | .float x => x.isFinite = true

theorem Number.IsRepresentable.readsBack {n : Number} (h : n.IsRepresentable) :
    Document.ReadsBack n := by
  cases n with
  | int i => exact Document.readsBack_int h.1 h.2
  | float x => exact Document.readsBack_float h

mutual

/-- No object repeats a key. -/
def HasDistinctKeys : Json → Prop
  | .arr items => HaveDistinctKeys items
  | .obj members => (members.map (·.1)).Nodup ∧ HaveDistinctKeysInValues members
  | _ => True

def HaveDistinctKeys : List Json → Prop
  | [] => True
  | item :: rest => item.HasDistinctKeys ∧ HaveDistinctKeys rest

def HaveDistinctKeysInValues : List (String × Json) → Prop
  | [] => True
  | (_, value) :: rest => value.HasDistinctKeys ∧ HaveDistinctKeysInValues rest

end

/-- A value as JSON has them. -/
structure IsValue (j : Json) : Prop where
  numbers : j.HasNumbers Number.IsRepresentable
  keys : j.HasDistinctKeys

section Imp

variable {P Q : Number → Prop}

mutual

theorem HasNumbers.imp (imp : ∀ n, P n → Q n) {j : Json} (h : j.HasNumbers P) :
    j.HasNumbers Q := by
  match j with
  | .null | .bool _ | .str _ => trivial
  | .num n => exact imp n h
  | .arr items => exact HaveNumbers.imp imp h
  | .obj members => exact HaveNumbersInValues.imp imp h

theorem HaveNumbers.imp (imp : ∀ n, P n → Q n) {items : List Json} (h : HaveNumbers P items) :
    HaveNumbers Q items := by
  match items with
  | [] => trivial
  | item :: rest => exact ⟨HasNumbers.imp imp h.1, HaveNumbers.imp imp h.2⟩

theorem HaveNumbersInValues.imp (imp : ∀ n, P n → Q n) {members : List (String × Json)}
    (h : HaveNumbersInValues P members) : HaveNumbersInValues Q members := by
  match members with
  | [] => trivial
  | (_, value) :: rest => exact ⟨HasNumbers.imp imp h.1, HaveNumbersInValues.imp imp h.2⟩

end

end Imp

/-! ### Equality up to the order of members -/

mutual

/-- Two values are equal up to the order of the members of objects, at every level. -/
inductive SameUpToOrder : Json → Json → Prop
  | null : SameUpToOrder .null .null
  | bool (b : Bool) : SameUpToOrder (.bool b) (.bool b)
  | num (n : Number) : SameUpToOrder (.num n) (.num n)
  | str (s : String) : SameUpToOrder (.str s) (.str s)
  | arr {items items'} (same : SameItems items items') : SameUpToOrder (.arr items) (.arr items')
  | obj {members reordered members'} (order : members.Perm reordered)
      (same : SameMembers reordered members') : SameUpToOrder (.obj members) (.obj members')

/-- The items of two arrays are the same, one by one. -/
inductive SameItems : List Json → List Json → Prop
  | nil : SameItems [] []
  | cons {item item' rest rest'} (first : SameUpToOrder item item')
      (others : SameItems rest rest') : SameItems (item :: rest) (item' :: rest')

/-- The members of two objects have the same keys and the same values, one by one. -/
inductive SameMembers : List (String × Json) → List (String × Json) → Prop
  | nil : SameMembers [] []
  | cons {key value value' rest rest'} (first : SameUpToOrder value value')
      (others : SameMembers rest rest') :
      SameMembers ((key, value) :: rest) ((key, value') :: rest')

end

theorem sameMembers_of_values_eq {f : Json → Json} {members members' : List (String × Json)}
    (eq : (members.map fun m => (m.1, f m.2)) = members'.map fun m => (m.1, f m.2))
    (same : ∀ m ∈ members, ∀ value, f m.2 = f value → m.2.SameUpToOrder value) :
    SameMembers members members' := by
  induction members generalizing members' with
  | nil =>
    cases members' with
    | nil => exact .nil
    | cons => cases eq
  | cons m rest ih =>
    cases members' with
    | nil => cases eq
    | cons m' rest' =>
      obtain ⟨first, others⟩ := List.cons.inj eq
      obtain ⟨key, value⟩ := Prod.mk.inj first
      obtain ⟨k, v⟩ := m
      obtain ⟨k', v'⟩ := m'
      cases key
      exact .cons (same (k, v) List.mem_cons_self v' value)
        (ih others fun m hm => same m (List.mem_cons_of_mem _ hm))

theorem values_eq_of_sameMembers {f : Json → Json} {members members' : List (String × Json)}
    (h : SameMembers members members')
    (same : ∀ m ∈ members, ∀ value, m.2.SameUpToOrder value → f m.2 = f value) :
    (members.map fun m => (m.1, f m.2)) = members'.map fun m => (m.1, f m.2) := by
  induction members generalizing members' with
  | nil =>
    cases h
    rfl
  | cons m rest ih =>
    cases h with
    | cons first others =>
      rw [List.map_cons, List.map_cons, same _ List.mem_cons_self _ first,
        ih others fun m hm => same m (List.mem_cons_of_mem _ hm)]

/-! ### Sorted members -/

theorem pairwise_sortByKey {α : Type} (l : List (String × α)) :
    (sortByKey l).Pairwise fun a b => (compare a.1 b.1).isLE := by
  have swap (a b : String × α) : compare b.1 a.1 = (compare a.1 b.1).swap :=
    Std.OrientedCmp.eq_swap
  -- the sort asks that the second key is not below the first
  have le_iff (a b : String × α) : (!(compare b.1 a.1).isLT) = (compare a.1 b.1).isLE := by
    rw [swap]
    cases compare a.1 b.1 <;> rfl
  have sorted : (sortByKey l).Pairwise fun a b => (!(compare b.1 a.1).isLT) = true := by
    refine List.pairwise_mergeSort (fun a b c => ?_) (fun a b => ?_) l
    · simp only [le_iff]
      exact Std.TransCmp.isLE_trans
    · rw [le_iff, le_iff, swap a b]
      cases compare a.1 b.1 <;> rfl
  exact sorted.imp fun h => by rwa [← le_iff]

/-- Members with different keys have one sorted order. -/
theorem sortByKey_eq_of_perm {α : Type} {l l' : List (String × α)} (perm : l.Perm l')
    (distinct : (l.map (·.1)).Nodup) : sortByKey l = sortByKey l' := by
  have reordered := (perm_sortByKey l).trans (perm.trans (perm_sortByKey l').symm)
  refine List.Perm.eq_of_pairwise (fun a b ha hb le ge => ?_) (pairwise_sortByKey l)
    (pairwise_sortByKey l') reordered
  have keys : a.1 = b.1 := Std.LawfulEqCmp.eq_of_compare (Std.OrientedCmp.isLE_antisymm le ge)
  exact List.inj_on_of_nodup_map distinct ((perm_sortByKey l).mem_iff.1 ha)
    ((perm_sortByKey l).mem_iff.1 (reordered.mem_iff.2 hb)) keys

/-- A list of images in another order is the image of the list in another order. -/
theorem exists_perm_of_map_perm {α β : Type} {f : α → β} {l : List α} {images : List β}
    (perm : (l.map f).Perm images) : ∃ l', l.Perm l' ∧ l'.map f = images := by
  have pairs : List.Forall₂ (fun x a => f a = x) (l.map f) l := by simp
  obtain ⟨l', images, order⟩ := List.perm_comp_forall₂ perm.symm pairs
  refine ⟨l', order.symm, ?_⟩
  rw [← List.forall₂_eq_eq_eq, List.forall₂_map_left_iff]
  exact images.flip

/-! ### Sorting decides equality up to order -/

mutual

/-- By induction on the first value. The members of an object are looked up in it, since they stand
in another order there. -/
theorem sameUpToOrder_of_sorted_eq {i j : Json} (h : i.sorted = j.sorted) : i.SameUpToOrder j := by
  match i with
  | .null | .bool _ | .num _ | .str _ =>
    cases j <;> cases h
    constructor
  | .arr items =>
    cases j with
    | arr items' => exact .arr (sameItems_of_sorted_eq (arr.inj h))
    | _ => cases h
  | .obj members =>
    cases j with
    | obj members' =>
      -- the sorted members of both are the same list, so their members are the same up to order
      have perm : (sortedMembers members).Perm (sortedMembers members') :=
        (perm_sortByKey _).symm.trans (obj.inj h ▸ perm_sortByKey _)
      rw [sortedMembers_eq_map, sortedMembers_eq_map] at perm
      obtain ⟨reordered, order, eq⟩ := exists_perm_of_map_perm perm
      refine .obj order (sameMembers_of_values_eq eq fun m hm => ?_)
      exact sameValues_of_sorted_eq m (order.mem_iff.2 hm)
    | _ => cases h

theorem sameItems_of_sorted_eq {items items' : List Json}
    (h : sortedItems items = sortedItems items') : SameItems items items' := by
  match items, items' with
  | [], [] => exact .nil
  | item :: rest, item' :: rest' =>
    obtain ⟨first, others⟩ := List.cons.inj h
    exact .cons (sameUpToOrder_of_sorted_eq first) (sameItems_of_sorted_eq others)

theorem sameValues_of_sorted_eq {members : List (String × Json)} :
    ∀ m ∈ members, ∀ value, m.2.sorted = value.sorted → m.2.SameUpToOrder value := by
  match members with
  | [] => exact fun _ h => absurd h List.not_mem_nil
  | (key, value) :: rest =>
    intro m hm
    rcases List.mem_cons.1 hm with rfl | hm
    · exact fun _ eq => sameUpToOrder_of_sorted_eq eq
    · exact sameValues_of_sorted_eq m hm

end

mutual

/-- By induction on the first value, as before. -/
theorem sorted_eq_of_sameUpToOrder {i j : Json} (h : i.SameUpToOrder j)
    (distinct : i.HasDistinctKeys) : i.sorted = j.sorted := by
  match i with
  | .null | .bool _ | .num _ | .str _ =>
    cases h
    rfl
  | .arr items =>
    cases h with
    | arr same => exact congrArg arr (sortedItems_eq_of_sameItems same distinct)
  | .obj members =>
    cases h with
    | @obj _ reordered members' order same =>
      obtain ⟨keys, values⟩ := distinct
      have eq := values_eq_of_sameMembers (f := sorted) same fun m hm =>
        sortedValues_eq_of_same values m (order.mem_iff.2 hm)
      have perm : (sortedMembers members).Perm (sortedMembers members') := by
        rw [sortedMembers_eq_map, sortedMembers_eq_map, ← eq]
        exact order.map _
      -- members with different keys can be sorted in one way only
      refine congrArg obj (sortByKey_eq_of_perm perm ?_)
      rw [sortedMembers_eq_map, List.map_map]
      exact keys

theorem sortedItems_eq_of_sameItems {items items' : List Json} (h : SameItems items items')
    (distinct : HaveDistinctKeys items) : sortedItems items = sortedItems items' := by
  match items with
  | [] =>
    cases h
    rfl
  | item :: rest =>
    cases h with
    | cons first others =>
      rw [sortedItems, sortedItems, sorted_eq_of_sameUpToOrder first distinct.1,
        sortedItems_eq_of_sameItems others distinct.2]

theorem sortedValues_eq_of_same {members : List (String × Json)}
    (distinct : HaveDistinctKeysInValues members) :
    ∀ m ∈ members, ∀ value, m.2.SameUpToOrder value → m.2.sorted = value.sorted := by
  match members with
  | [] => exact fun _ h => absurd h List.not_mem_nil
  | (key, value) :: rest =>
    intro m hm
    rcases List.mem_cons.1 hm with rfl | hm
    · exact fun _ same => sorted_eq_of_sameUpToOrder same distinct.1
    · exact sortedValues_eq_of_same distinct.2 m hm

end

theorem sorted_eq_sorted_iff {i j : Json} (distinct : i.HasDistinctKeys) :
    i.sorted = j.sorted ↔ i.SameUpToOrder j :=
  ⟨sameUpToOrder_of_sorted_eq, fun h => sorted_eq_of_sameUpToOrder h distinct⟩

/-! ### Canonical texts -/

/-- Sorting does not change the canonical text. -/
theorem canonical_eq_of_sorted_eq {i j : Json} (h : i.sorted = j.sorted) :
    i.canonical = j.canonical := by
  rw [canonical, canonical, canonicalChars_eq_compactChars, canonicalChars_eq_compactChars, h]

/-- Values that JSON can hold have one canonical text only when they are equal once sorted. -/
theorem canonical_eq_iff_sorted_eq {i j : Json} (hi : i.HasNumbers Number.IsRepresentable)
    (hj : j.HasNumbers Number.IsRepresentable) : i.canonical = j.canonical ↔ i.sorted = j.sorted :=
  ⟨sorted_eq_of_canonical_eq (hi.imp fun _ => Number.IsRepresentable.readsBack)
    (hj.imp fun _ => Number.IsRepresentable.readsBack), canonical_eq_of_sorted_eq⟩

/-- **The canonical text identifies a value** up to the order of the members of objects. -/
theorem canonical_eq_canonical_iff {i j : Json} (hi : i.IsValue) (hj : j.IsValue) :
    i.canonical = j.canonical ↔ i.SameUpToOrder j := by
  rw [canonical_eq_iff_sorted_eq hi.numbers hj.numbers, sorted_eq_sorted_iff hi.keys]

/-- A measurement: its unit, and numbers of which one is an integer and one is not. -/
def measurement : Json :=
  .obj [("unit", .obj [("name", .str "grade \\ \"a\""), ("scale", .null)]),
    ("values", .arr [.num (.int 1), .num (.float .one)])]

/-- The same measurement, written down in another order. -/
def measurementReordered : Json :=
  .obj [("values", .arr [.num (.int 1), .num (.float .one)]),
    ("unit", .obj [("scale", .null), ("name", .str "grade \\ \"a\"")])]

theorem canonical_eq_canonical_iff_measurement :
    measurement.IsValue ∧ measurementReordered.IsValue ∧
      (measurement.canonical = measurementReordered.canonical ↔
        measurement.SameUpToOrder measurementReordered) ∧
      measurement.canonical = measurementReordered.canonical := by
  have finite : Binary64.one.isFinite = true := by decide
  have value : measurement.IsValue :=
    ⟨⟨⟨trivial, trivial, trivial⟩, ⟨⟨by decide, by decide⟩, finite, trivial⟩, trivial⟩,
      by decide, ⟨by decide, trivial, trivial, trivial⟩, ⟨trivial, trivial, trivial⟩, trivial⟩
  have value' : measurementReordered.IsValue :=
    ⟨⟨⟨⟨by decide, by decide⟩, finite, trivial⟩, ⟨trivial, trivial, trivial⟩, trivial⟩,
      by decide, ⟨trivial, trivial, trivial⟩, ⟨by decide, trivial, trivial, trivial⟩, trivial⟩
  have same : measurement.SameUpToOrder measurementReordered :=
    .obj (.swap _ _ _) (.cons (.arr (.cons (.num _) (.cons (.num _) .nil)))
      (.cons (.obj (.swap _ _ _) (.cons .null (.cons (.str _) .nil))) .nil))
  have iff := canonical_eq_canonical_iff value value'
  exact ⟨value, value', iff, iff.2 same⟩

end Clausal.Json
