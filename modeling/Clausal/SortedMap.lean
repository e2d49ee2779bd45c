/-!
# Maps in key order

A finite map is the list of its entries, with strictly increasing keys. So equal maps have equal
entries, and whatever walks a map meets its keys in order. What an insertion does is said by
`get?_insert`.
-/

namespace Clausal

/-- A finite map, as its entries in strictly increasing order of the keys. -/
structure SortedMap (κ β : Type) [Ord κ] where
  entries : List (κ × β)
  increasing : entries.Pairwise fun a b => compare a.1 b.1 = .lt

namespace SortedMap

variable {κ β γ : Type} [Ord κ]

def empty : SortedMap κ β := ⟨[], .nil⟩

instance : EmptyCollection (SortedMap κ β) := ⟨empty⟩

instance : Inhabited (SortedMap κ β) := ⟨empty⟩

def keys (m : SortedMap κ β) : List κ := m.entries.map (·.1)

/-- The values in the order of their keys. -/
def values (m : SortedMap κ β) : List β := m.entries.map (·.2)

def size (m : SortedMap κ β) : Nat := m.entries.length

def get? (m : SortedMap κ β) (k : κ) : Option β :=
  (m.entries.find? fun e => compare k e.1 == .eq).map (·.2)

theorem mem_values_of_get? {m : SortedMap κ β} {k : κ} {v : β} (h : m.get? k = some v) :
    v ∈ m.values := by
  obtain ⟨e, found, rfl⟩ := Option.map_eq_some_iff.1 h
  exact List.mem_map_of_mem (List.mem_of_find?_eq_some found)

def contains (m : SortedMap κ β) (k : κ) : Bool := (m.get? k).isSome

theorem ne_of_fresh {m : SortedMap κ β} {k k' : κ} {v : β} (held : m.get? k = some v)
    (fresh : m.contains k' = false) : k ≠ k' := by
  rintro rfl
  rw [contains, held] at fresh
  cases fresh

/-- The entries with a value put at a key, in place of an older one. -/
def insertEntry (k : κ) (v : β) : List (κ × β) → List (κ × β)
  | [] => [(k, v)]
  | e :: rest =>
    match compare k e.1 with
    | .lt => (k, v) :: e :: rest
    | .eq => (k, v) :: rest
    | .gt => e :: insertEntry k v rest

theorem mem_insertEntry {k : κ} {v : β} {l : List (κ × β)} {e : κ × β}
    (h : e ∈ insertEntry k v l) : e = (k, v) ∨ e ∈ l := by
  induction l with
  | nil => simpa [insertEntry] using h
  | cons x rest ih =>
    simp only [insertEntry] at h
    split at h
    · simpa using h
    · rcases List.mem_cons.1 h with h | h
      · exact .inl h
      · exact .inr (List.mem_cons_of_mem _ h)
    · rcases List.mem_cons.1 h with h | h
      · exact .inr (by simp [h])
      · exact (ih h).imp_right (List.mem_cons_of_mem _)

variable [Std.TransOrd κ]

theorem pairwise_insertEntry (k : κ) (v : β) {l : List (κ × β)}
    (h : l.Pairwise fun a b => compare a.1 b.1 = .lt) :
    (insertEntry k v l).Pairwise fun a b => compare a.1 b.1 = .lt := by
  induction l with
  | nil => simp [insertEntry]
  | cons x rest ih =>
    have hx := List.pairwise_cons.1 h
    simp only [insertEntry]
    split
    · rename_i hlt
      refine List.pairwise_cons.2 ⟨fun e he => ?_, h⟩
      rcases List.mem_cons.1 he with rfl | he
      · exact hlt
      · exact Std.TransCmp.lt_trans hlt (hx.1 e he)
    · rename_i heq
      refine List.pairwise_cons.2 ⟨fun e he => ?_, hx.2⟩
      rw [Std.TransCmp.congr_left heq]
      exact hx.1 e he
    · rename_i hgt
      refine List.pairwise_cons.2 ⟨fun e he => ?_, ih hx.2⟩
      rcases mem_insertEntry he with rfl | he
      · exact Std.OrientedCmp.lt_of_gt hgt
      · exact hx.1 e he

/-- The map with a value put at a key, in place of an older one. -/
def insert (m : SortedMap κ β) (k : κ) (v : β) : SortedMap κ β :=
  ⟨insertEntry k v m.entries, pairwise_insertEntry k v m.increasing⟩

theorem mem_insert {m : SortedMap κ β} {k : κ} {v : β} {e : κ × β}
    (h : e ∈ (m.insert k v).entries) : e = (k, v) ∨ e ∈ m.entries := mem_insertEntry h

theorem find?_insertEntry (k k' : κ) (v : β) {l : List (κ × β)}
    (h : l.Pairwise fun a b => compare a.1 b.1 = .lt) :
    (insertEntry k v l).find? (fun e => compare k' e.1 == .eq) =
      if compare k' k = .eq then some (k, v) else l.find? fun e => compare k' e.1 == .eq := by
  induction l with
  | nil => by_cases hk : compare k' k = .eq <;> simp [insertEntry, hk]
  | cons x rest ih =>
    simp only [insertEntry]
    split
    · by_cases hk : compare k' k = .eq <;> simp [List.find?_cons, hk]
    · rename_i heq
      by_cases hk : compare k' k = .eq
      · simp [hk]
      · have : compare k' x.1 ≠ .eq := by rwa [← Std.TransCmp.congr_right heq]
        simp [hk, this]
    · rename_i hgt
      rw [List.find?_cons, List.find?_cons, ih (List.pairwise_cons.1 h).2]
      by_cases hk : compare k' k = .eq
      · have : (compare k' x.1 == .eq) = false := by
          rw [Std.TransCmp.congr_left hk, hgt]
          rfl
        rw [this, if_pos hk]
      · simp [hk]

/-- After an insertion the new key has the new value and every other key the value it had. -/
theorem get?_insert (m : SortedMap κ β) (k k' : κ) (v : β) :
    (m.insert k v).get? k' = if compare k' k = .eq then some v else m.get? k' := by
  simp only [get?, insert, find?_insertEntry k k' v m.increasing]
  split <;> rfl

/-- The map of a list of entries; of two with one key the later one counts. -/
def ofList (l : List (κ × β)) : SortedMap κ β :=
  l.foldl (fun m e => m.insert e.1 e.2) empty

/-- The entries of `m` and those of `other`, which count where both have a key. -/
def union (m other : SortedMap κ β) : SortedMap κ β :=
  other.entries.foldl (fun m e => m.insert e.1 e.2) m

omit [Std.TransOrd κ] in
def mapValues (f : β → γ) (m : SortedMap κ β) : SortedMap κ γ :=
  ⟨m.entries.map fun e => (e.1, f e.2), by
    rw [List.pairwise_map]
    exact m.increasing⟩

omit [Std.TransOrd κ] in
theorem ext {m m' : SortedMap κ β} (h : m.entries = m'.entries) : m = m' := by
  cases m; cases m'; simp_all

instance [DecidableEq κ] [DecidableEq β] : DecidableEq (SortedMap κ β) := fun m m' =>
  if h : m.entries = m'.entries then isTrue (ext h) else isFalse fun he => h (he ▸ rfl)

end SortedMap

end Clausal
