import Clausal.Proofs.Library.Predicate
import Clausal.Proofs.Maps
import Clausal.Proofs.Schema.Spelled

/-!
# What a library declares

Main statement: `Library.Grows.predicate?`. A library that grows keeps the specs that it has, and an
identifier names the same predicate in it as before, unless the digests of two of its predicates
collide. This needs that the text behind the identifier of a predicate tells its key
(`LibrarySpec.key_eq_of_canonical`): the text starts with the arity, the kind and the name, which are
read off one after the other.
-/

namespace Clausal

/-! ### Texts of specs -/

theorem SpecKind.text_injective {k k' : SpecKind} (h : k.text = k'.text) : k = k' := by
  cases k <;> cases k' <;> first | rfl | exact absurd h (by decide)

namespace LibrarySpec

/-- What the identifier of a predicate spec depends on, in the order of the keys. -/
def spelled (s : LibrarySpec) : Json :=
  .obj [("arity", .ofNat s.arity), ("kind", .str s.kind.text), ("name", .str s.name),
    ("signature", (s.signature.elim Json.null Json.ofStrings).sorted)]

theorem sorted_identity (s : LibrarySpec) : s.identity.sorted = s.spelled := by
  refine Json.sorted_obj_eq_of_increasing ["arity", "kind", "name", "signature"] (by decide) rfl ?_
  exact @List.perm_middle _ _ [_, _] _

theorem toList_canonical (s : LibrarySpec) : ∃ rest, s.identity.canonical.toList =
    '\x7b' :: (Json.spellString "arity" ++ ':' :: (Nat.toDigits 10 s.arity ++
      ',' :: (Json.spellString "kind" ++ ':' :: (Json.spellString s.kind.text ++
        ',' :: (Json.spellString "name" ++ ':' :: (Json.spellString s.name ++ rest)))))) := by
  have digits : Json.spellInt s.arity = Nat.toDigits 10 s.arity :=
    if_neg (Int.not_lt.2 (Int.natCast_nonneg s.arity))
  rw [Json.canonical, String.toList_ofList, Json.canonicalChars_eq_compactChars, s.sorted_identity]
  simp only [spelled, Json.compactChars, Json.compactMembers, Json.commaSeparated, Json.ofNat,
    Json.spellNumber, digits, List.append_assoc, List.cons_append]
  exact ⟨_, rfl⟩

/-- The text behind the identifier of a spec tells its key. -/
theorem key_eq_of_canonical {s t : LibrarySpec} (h : s.identity.canonical = t.identity.canonical) :
    s.key = t.key := by
  obtain ⟨rest, texts⟩ := s.toList_canonical
  obtain ⟨rest', textt⟩ := t.toList_canonical
  have comma (cs : List Char) : Document.StopsDigits (',' :: cs) := by rintro _ ⟨⟩; rfl
  have chars := texts.symm.trans ((congrArg String.toList h).trans textt)
  obtain ⟨-, chars⟩ := Document.spellString_append_injective (List.cons.inj chars).2
  obtain ⟨arity, chars⟩ :=
    Document.toDigits_append_injective (comma _) (comma _) (List.cons.inj chars).2
  obtain ⟨-, chars⟩ := Document.spellString_append_injective (List.cons.inj chars).2
  obtain ⟨word, chars⟩ := Document.spellString_append_injective (List.cons.inj chars).2
  obtain ⟨-, chars⟩ := Document.spellString_append_injective (List.cons.inj chars).2
  obtain ⟨name, -⟩ := Document.spellString_append_injective (List.cons.inj chars).2
  have kind : s.kind = t.kind := SpecKind.text_injective word
  rw [key, key, name, arity, kind]

theorem schemaId?_eq_some_iff {s : LibrarySpec} {id : String} :
    s.schemaId? = some id ↔
      s.kind = .predicate ∧ Identifier.ofText s.identity.canonical = id := by
  unfold schemaId?
  cases s.kind with
  | predicate => simp only [true_and, Option.some.injEq, Identifier.ofJson]
  | expr => simp

theorem schemaId?_eq_spelled {s : LibrarySpec} (declares : s.kind = .predicate) :
    s.schemaId? = some (Identifier.ofText s.spelled.compact) := by
  rw [← Identifier.ofJson_eq_of_sorted s.sorted_identity]
  exact schemaId?_eq_some_iff.2 ⟨declares, rfl⟩

end LibrarySpec

/-! ### Lookups in a library -/

namespace Library

theorem id_eq_ofText {l : Library} {id : String} {p : LibrarySpec}
    (h : l.predicate? id = some p) : id = Identifier.ofText p.identity.canonical :=
  (LibrarySpec.schemaId?_eq_some_iff.1 (predicate?_sound h).2).2.symm

/-- A library has each spec under its key. -/
theorem get?_eq_some_iff {l : Library} {key : SpecKey} {s : LibrarySpec} :
    l.get? key = some s ↔ s ∈ l.specs.values ∧ s.key = key := by
  rw [get?, SortedMap.get?_eq_some_iff, SortedMap.values, List.mem_map]
  constructor
  · intro mem
    exact ⟨⟨_, mem, rfl⟩, (l.keyed _ mem).symm⟩
  · rintro ⟨⟨e, mem, rfl⟩, rfl⟩
    rwa [← l.keyed e mem]

/-- No digests of two predicates collide. -/
def CollisionFree (l : Library) : Prop :=
  ∀ s ∈ l.specs.values, ∀ t ∈ l.specs.values, s.kind = .predicate → t.kind = .predicate →
    ¬ Identifier.Collide s.identity.canonical t.identity.canonical

theorem CollisionFree.eq_of_schemaId? {l : Library} (free : l.CollisionFree) {s t : LibrarySpec}
    {id : String} (hs : s ∈ l.specs.values) (ht : t ∈ l.specs.values)
    (ids : s.schemaId? = some id) (idt : t.schemaId? = some id) : s = t := by
  obtain ⟨declares, digest⟩ := LibrarySpec.schemaId?_eq_some_iff.1 ids
  obtain ⟨declares', digest'⟩ := LibrarySpec.schemaId?_eq_some_iff.1 idt
  have texts : s.identity.canonical = t.identity.canonical := by
    by_contra differ
    exact free s hs t ht declares declares' ⟨differ, digest.trans digest'.symm⟩
  have held := get?_eq_some_iff.2 ⟨hs, LibrarySpec.key_eq_of_canonical texts⟩
  exact Option.some.inj (held.symm.trans (get?_eq_some_iff.2 ⟨ht, rfl⟩))

theorem CollisionFree.predicate?_eq_some_iff {l : Library} (free : l.CollisionFree) {id : String}
    {s : LibrarySpec} :
    l.predicate? id = some s ↔ s ∈ l.specs.values ∧ s.schemaId? = some id := by
  refine ⟨predicate?_sound, fun ⟨mem, named⟩ => ?_⟩
  cases found : l.predicate? id with
  | none => exact absurd named (predicate?_eq_none.1 found s mem)
  | some t =>
    obtain ⟨mem', named'⟩ := predicate?_sound found
    rw [free.eq_of_schemaId? mem mem' named named']

/-! ### Libraries that grow -/

/-- `l.Grows m` says that `m` is `l` with further specs, which are inserted in turn. -/
inductive Grows (l : Library) : Library → Prop
  | refl : Grows l l
  | insert {m m' s} (grown : Grows l m) (declared : m.insert s = .ok m') : Grows l m'

/-- An inserted spec has a key of its own, so that no other spec makes room for it. -/
theorem get?_insert {m m' : Library} {s t : LibrarySpec} {key : SpecKey}
    (declared : m.insert s = .ok m') (held : m.get? key = some t) : m'.get? key = some t := by
  obtain ⟨valid, fresh, rfl⟩ := insert_eq_ok_iff.1 declared
  have other : ¬ compare key s.key = .eq := fun same =>
    SortedMap.ne_of_fresh held fresh (Std.LawfulEqCmp.eq_of_compare same)
  rw [get?, add, SortedMap.get?_insert, if_neg other]
  exact held

theorem Grows.get? {l m : Library} (grown : l.Grows m) {key : SpecKey} {s : LibrarySpec}
    (held : l.get? key = some s) : m.get? key = some s := by
  induction grown with
  | refl => exact held
  | insert _ declared ih => exact get?_insert declared ih

theorem Grows.mem {l m : Library} (grown : l.Grows m) {s : LibrarySpec}
    (mem : s ∈ l.specs.values) : s ∈ m.specs.values :=
  (get?_eq_some_iff.1 (grown.get? (get?_eq_some_iff.2 ⟨mem, rfl⟩))).1

/-- An identifier names the predicate that it has named before. -/
theorem Grows.predicate? {l m : Library} (grown : l.Grows m) (free : m.CollisionFree) {id : String}
    {s : LibrarySpec} (found : l.predicate? id = some s) : m.predicate? id = some s :=
  free.predicate?_eq_some_iff.2 ((predicate?_sound found).imp_left grown.mem)

end Library

/-! ### Who is older and who is taller -/

def LibrarySpec.olderId : String :=
  "c1cdbad33189fe3648ac419feb46daee57b65944e9fd4b394d0fa72f0a21ee1c"

def LibrarySpec.tallerId : String :=
  "b234f862638a377b2c2ee35796b1689188279f3c6cfac5d8054591dddb4254b5"

theorem LibrarySpec.schemaId?_older : (comparing "older").schemaId? = some olderId := by
  rw [schemaId?_eq_spelled rfl, Identifier.ofText_compact]
  decide +kernel

theorem LibrarySpec.schemaId?_taller : (comparing "taller").schemaId? = some tallerId := by
  rw [schemaId?_eq_spelled rfl, Identifier.ofText_compact]
  decide +kernel

/-- A library that can say who is older. -/
def Library.ages : Library := empty.add (.comparing "older") (by decide) rfl

/-- A library that can also say who is taller. -/
def Library.sizes : Library := ages.add (.comparing "taller") (by decide) (by decide)

theorem Library.insert_taller : ages.insert (.comparing "taller") = .ok sizes :=
  insert_eq_ok_iff.2 ⟨_, _, rfl⟩

theorem Library.collisionFree_sizes : sizes.CollisionFree := by
  have differ : Identifier.ofText (LibrarySpec.comparing "older").identity.canonical ≠
      Identifier.ofText (LibrarySpec.comparing "taller").identity.canonical := by
    rw [(LibrarySpec.schemaId?_eq_some_iff.1 LibrarySpec.schemaId?_older).2,
      (LibrarySpec.schemaId?_eq_some_iff.1 LibrarySpec.schemaId?_taller).2]
    decide
  intro s hs t ht _ _ collide
  rcases List.mem_pair.1 hs with rfl | rfl <;> rcases List.mem_pair.1 ht with rfl | rfl
  · exact collide.1 rfl
  · exact differ collide.2
  · exact differ collide.2.symm
  · exact collide.1 rfl

end Clausal
