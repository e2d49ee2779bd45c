import Clausal.SortedMap

/-!
# Maps from their entries

The entries of a map give the map back (`ofList_entries`), and any list of entries with different
keys is kept up to its order (`perm_ofList`), so that its values are found (`get?_ofList`). Of values
that are put in one place in turn, the last one stays (`Puts.held_foldl_append`).
-/

namespace Clausal.SortedMap

/-! ### Looking up in lists of entries -/

section Lookup

variable {κ β : Type} [BEq κ] [LawfulBEq κ]

theorem lookup_eq_some_iff {l : List (κ × β)}
    (distinct : (l.map (·.1)).Nodup) {k : κ} {v : β} : l.lookup k = some v ↔ (k, v) ∈ l := by
  induction l with
  | nil => simp
  | cons e rest ih =>
    obtain ⟨new, distinct⟩ := List.nodup_cons.1 distinct
    rw [List.lookup_cons, List.mem_cons]
    by_cases same : k = e.1
    · subst same
      simp only [beq_self_eq_true, Option.some.injEq]
      constructor
      · exact fun eq => .inl (eq ▸ rfl)
      · rintro (eq | mem)
        · exact (congrArg Prod.snd eq).symm
        · exact absurd (List.mem_map_of_mem mem) new
    · have other : (k, v) ≠ e := fun eq => same (congrArg Prod.fst eq)
      simp only [beq_eq_false_iff_ne.2 same, ih distinct, other, false_or]

theorem lookup_perm {l l' : List (κ × β)} (perm : l.Perm l')
    (distinct : (l.map (·.1)).Nodup) (k : κ) : l.lookup k = l'.lookup k := by
  refine Option.ext fun v => ?_
  rw [lookup_eq_some_iff distinct, lookup_eq_some_iff (distinct.perm (perm.map _)), perm.mem_iff]

end Lookup

/-! ### Insertion -/

variable {κ β : Type} [Ord κ]

theorem insertEntry_of_greatest {k : κ} {v : β} {l : List (κ × β)} [Std.OrientedOrd κ]
    (h : ∀ e ∈ l, compare e.1 k = .lt) : insertEntry k v l = l ++ [(k, v)] := by
  induction l with
  | nil => rfl
  | cons e rest ih =>
    have greater : compare k e.1 = .gt := Std.OrientedCmp.gt_of_lt (h e List.mem_cons_self)
    rw [insertEntry, greater]
    simp only [List.cons_append, ih fun e he => h e (List.mem_cons_of_mem _ he)]

theorem perm_insertEntry [Std.LawfulEqOrd κ] {k : κ} {v : β} {l : List (κ × β)}
    (new : k ∉ l.map (·.1)) : (insertEntry k v l).Perm ((k, v) :: l) := by
  induction l with
  | nil => exact .refl _
  | cons e rest ih =>
    obtain ⟨ne, new⟩ := not_or.1 (mt List.mem_cons.2 new)
    rw [insertEntry]
    split
    case h_1 => exact .refl _
    case h_2 eq => exact absurd (Std.LawfulEqCmp.eq_of_compare eq) ne
    case h_3 => exact ((ih new).cons e).trans (.swap _ _ _)

variable [Std.TransOrd κ]

theorem entries_foldl_insert {m : SortedMap κ β} {l : List (κ × β)}
    (h : (m.entries ++ l).Pairwise fun a b => compare a.1 b.1 = .lt) :
    (l.foldl (fun m e => m.insert e.1 e.2) m).entries = m.entries ++ l := by
  induction l generalizing m with
  | nil => simp
  | cons e rest ih =>
    have last : (m.insert e.1 e.2).entries = m.entries ++ [e] :=
      insertEntry_of_greatest fun x hx => (List.pairwise_append.1 h).2.2 x hx e List.mem_cons_self
    rw [List.foldl_cons, ih (by simpa [last] using h), last]
    simp

/-- The map of the entries of a map. -/
theorem ofList_entries (m : SortedMap κ β) : ofList m.entries = m :=
  ext (entries_foldl_insert (m := empty) m.increasing)

theorem mem_of_mem_foldl_insert {m : SortedMap κ β} {l : List (κ × β)} {e : κ × β}
    (h : e ∈ (l.foldl (fun m e => m.insert e.1 e.2) m).entries) : e ∈ m.entries ∨ e ∈ l := by
  induction l generalizing m with
  | nil => exact .inl h
  | cons x rest ih =>
    rcases ih h with h | h
    · rcases mem_insert h with rfl | h
      · exact .inr List.mem_cons_self
      · exact .inl h
    · exact .inr (List.mem_cons_of_mem _ h)

/-- The entries of a map of a list are among those of the list. -/
theorem mem_of_mem_ofList {l : List (κ × β)} {e : κ × β} (h : e ∈ (ofList l).entries) : e ∈ l :=
  (mem_of_mem_foldl_insert h).resolve_left List.not_mem_nil

theorem perm_foldl_insert [Std.LawfulEqOrd κ] {m : SortedMap κ β} {l : List (κ × β)}
    (distinct : ((m.entries ++ l).map (·.1)).Nodup) :
    (l.foldl (fun m e => m.insert e.1 e.2) m).entries.Perm (m.entries ++ l) := by
  induction l generalizing m with
  | nil => simp
  | cons e rest ih =>
    have moved : (m.entries ++ e :: rest).Perm (e :: m.entries ++ rest) := List.perm_middle
    have new : e.1 ∉ m.entries.map (·.1) := fun mem => by
      have apart := List.nodup_append.1 (List.map_append ▸ distinct)
      exact apart.2.2 _ mem _ (by simp) rfl
    have added : (m.insert e.1 e.2).entries.Perm (e :: m.entries) := perm_insertEntry new
    rw [List.foldl_cons]
    refine (ih ?_).trans ((added.append_right rest).trans moved.symm)
    exact distinct.perm ((moved.trans (added.append_right rest).symm).map _)

/-- Entries with different keys are the entries of their map, in some order. -/
theorem perm_ofList [Std.LawfulEqOrd κ] {l : List (κ × β)} (distinct : (l.map (·.1)).Nodup) :
    (ofList l).entries.Perm l := perm_foldl_insert (m := empty) distinct

/-! ### Order does not count -/

omit [Ord κ] [Std.TransOrd κ] in
/-- A list in strictly increasing order is the only order of its items that is. -/
theorem eq_of_perm_of_increasing {cmp : κ → κ → Ordering} [Std.OrientedCmp cmp] {l l' : List κ}
    (increasing : l.Pairwise fun a b => cmp a b = .lt)
    (increasing' : l'.Pairwise fun a b => cmp a b = .lt) (perm : l.Perm l') : l = l' := by
  refine List.Perm.eq_of_pairwise (fun a b _ _ less greater => ?_) increasing increasing' perm
  exact Ordering.noConfusion (greater.symm.trans (Std.OrientedCmp.gt_of_lt less))

/-- Maps whose entries are the same up to their order are equal. -/
theorem ext_perm {m m' : SortedMap κ β} (perm : m.entries.Perm m'.entries) : m = m' := by
  have byKey (m : SortedMap κ β) :
      m.entries.Pairwise fun a b => compareOn (·.1) a b = .lt := m.increasing
  exact ext (eq_of_perm_of_increasing (byKey m) (byKey m') perm)

/-- A list of entries with different keys has the same map in any order. -/
theorem ofList_perm [Std.LawfulEqOrd κ] {l l' : List (κ × β)} (perm : l.Perm l')
    (distinct : (l.map (·.1)).Nodup) : ofList l = ofList l' := by
  have distinct' := distinct.perm (perm.map _)
  exact ext_perm ((perm_ofList distinct).trans (perm.trans (perm_ofList distinct').symm))

/-- The union of the maps of two lists that have no key in common. -/
theorem union_ofList [Std.LawfulEqOrd κ] {l l' : List (κ × β)}
    (distinct : ((l ++ l').map (·.1)).Nodup) :
    (ofList l).union (ofList l') = ofList (l ++ l') := by
  obtain ⟨left, right, -⟩ := List.nodup_append.1 (List.map_append ▸ distinct)
  have both := (perm_ofList left).append (perm_ofList right)
  exact ext_perm ((perm_foldl_insert (distinct.perm (both.map _).symm)).trans
    (both.trans (perm_ofList distinct).symm))

/-! ### Looking up in maps -/

section Find

omit [Std.TransOrd κ]

variable [Std.LawfulEqOrd κ]

theorem nodup_keys (m : SortedMap κ β) : (m.entries.map (·.1)).Nodup := by
  refine List.pairwise_map.2 (m.increasing.imp fun {a b} less same => ?_)
  have self : compare a.1 b.1 = .eq := Std.LawfulEqCmp.compare_eq_iff_eq.2 same
  exact Ordering.noConfusion (less.symm.trans self)

theorem get?_eq_lookup [BEq κ] [LawfulBEq κ] (m : SortedMap κ β) (k : κ) :
    m.get? k = m.entries.lookup k := by
  rw [get?]
  induction m.entries with
  | nil => rfl
  | cons e rest ih =>
    rw [List.find?_cons, List.lookup_cons, ← ih]
    by_cases same : k = e.1
    · simp [same]
    · have differ : compare k e.1 ≠ .eq := fun eq => same (Std.LawfulEqCmp.eq_of_compare eq)
      rw [beq_eq_false_iff_ne.2 differ, beq_eq_false_iff_ne.2 same]

theorem get?_eq_some_iff [BEq κ] [LawfulBEq κ] {m : SortedMap κ β} {k : κ} {v : β} :
    m.get? k = some v ↔ (k, v) ∈ m.entries := by
  rw [get?_eq_lookup, lookup_eq_some_iff m.nodup_keys]

theorem mem_keys_iff [BEq κ] [LawfulBEq κ] {m : SortedMap κ β} {k : κ} :
    k ∈ m.keys ↔ m.contains k = true := by
  rw [contains, Option.isSome_iff_exists, keys, List.mem_map]
  constructor
  · rintro ⟨e, mem, rfl⟩
    exact ⟨e.2, get?_eq_some_iff.2 mem⟩
  · rintro ⟨v, found⟩
    exact ⟨(k, v), get?_eq_some_iff.1 found, rfl⟩

end Find

section Keys

variable [Std.LawfulEqOrd κ]

theorem contains_insert {m : SortedMap κ β} {k k' : κ} {v : β} :
    (m.insert k v).contains k' = true ↔ k' = k ∨ m.contains k' = true := by
  rw [contains, get?_insert]
  by_cases same : k' = k
  · simp [same]
  · have differ : compare k' k ≠ .eq := fun eq => same (Std.LawfulEqCmp.eq_of_compare eq)
    rw [if_neg differ]
    exact (or_iff_right same).symm

theorem contains_foldl_insert {m : SortedMap κ β} {l : List (κ × β)} {k : κ} :
    (l.foldl (fun m e => m.insert e.1 e.2) m).contains k = true ↔
      m.contains k = true ∨ k ∈ l.map (·.1) := by
  induction l generalizing m with
  | nil => simp
  | cons e rest ih =>
    rw [List.foldl_cons, ih, contains_insert, List.map_cons, List.mem_cons, or_assoc, or_left_comm]

/-- The keys of a map of a list are those of the list. -/
theorem mem_keys_ofList [BEq κ] [LawfulBEq κ] {l : List (κ × β)} {k : κ} :
    k ∈ (ofList l).keys ↔ k ∈ l.map (·.1) := by
  have none : (empty : SortedMap κ β).contains k = false := rfl
  rw [mem_keys_iff, ofList, contains_foldl_insert, none]
  simp

end Keys

/-- Maps with the same values at all keys are equal. -/
theorem ext_get? [Std.LawfulEqOrd κ] [DecidableEq κ] {m m' : SortedMap κ β}
    (h : ∀ k, m.get? k = m'.get? k) : m = m' := by
  have nodup (m : SortedMap κ β) : m.entries.Nodup :=
    (List.pairwise_map.1 m.nodup_keys).imp fun ne eq => ne (congrArg Prod.fst eq)
  refine ext_perm ((List.perm_ext_iff_of_nodup (nodup m) (nodup m')).2 fun e => ?_)
  rw [← get?_eq_some_iff (k := e.1) (v := e.2), ← get?_eq_some_iff (k := e.1) (v := e.2), h]

theorem insert_comm [Std.LawfulEqOrd κ] [DecidableEq κ] (m : SortedMap κ β) {k k' : κ}
    (ne : k ≠ k') (v v' : β) : (m.insert k v).insert k' v' = (m.insert k' v').insert k v := by
  refine ext_get? fun x => ?_
  simp only [get?_insert]
  by_cases first : compare x k = .eq
  · have second : compare x k' ≠ .eq := fun second =>
      ne ((Std.LawfulEqCmp.eq_of_compare first).symm.trans (Std.LawfulEqCmp.eq_of_compare second))
    rw [if_neg second, if_neg second]
  · rw [if_neg first, if_neg first]

theorem get?_ofList [Std.LawfulEqOrd κ] [BEq κ] [LawfulBEq κ] {l : List (κ × β)}
    (distinct : (l.map (·.1)).Nodup) {k : κ} {v : β} :
    (ofList l).get? k = some v ↔ (k, v) ∈ l := by
  rw [get?_eq_some_iff, (perm_ofList distinct).mem_iff]

end Clausal.SortedMap

namespace Clausal

/-! ### Putting values in places -/

/-- Putting a value in a place changes nothing elsewhere. -/
structure Puts {σ ι β : Type} (value? : σ → ι → Option β) (put : σ → ι × β → σ) : Prop where
  self : ∀ s i v, value? (put s (i, v)) i = some v
  other : ∀ s i v j, j ≠ i → value? (put s (i, v)) j = value? s j

namespace Puts

variable {σ ι β : Type} {value? : σ → ι → Option β} {put : σ → ι × β → σ}

/-- A value stays in its place, unless a later one is put there. -/
theorem held_foldl (puts : Puts value? put) {l : List (ι × β)} {s : σ} {i : ι} {v : β}
    (held : value? s i = some v) :
    value? (l.foldl put s) i = some v ∨
      ∃ v', (i, v') ∈ l ∧ value? (l.foldl put s) i = some v' := by
  induction l generalizing s v with
  | nil => exact .inl held
  | cons e rest ih =>
    obtain ⟨j, w⟩ := e
    rw [List.foldl_cons]
    by_cases same : i = j
    · subst same
      rcases ih (puts.self s i w) with last | ⟨v', mem, last⟩
      · exact .inr ⟨w, List.mem_cons_self, last⟩
      · exact .inr ⟨v', List.mem_cons_of_mem _ mem, last⟩
    · refine (ih ((puts.other s j w i same).trans held)).imp_right ?_
      rintro ⟨v', mem, last⟩
      exact ⟨v', List.mem_cons_of_mem _ mem, last⟩

/-- Of the values that are put in one place, the last one is there in the end. -/
theorem held_foldl_append (puts : Puts value? put) (before after : List (ι × β)) (s : σ) (i : ι)
    (v : β) :
    value? ((before ++ (i, v) :: after).foldl put s) i = some v ∨
      ∃ v', (i, v') ∈ after ∧ value? ((before ++ (i, v) :: after).foldl put s) i = some v' := by
  rw [List.foldl_append, List.foldl_cons]
  exact puts.held_foldl (puts.self _ i v)

theorem held_foldl_of_nodup (puts : Puts value? put) {l : List (ι × β)} {s : σ} {i : ι} {v : β}
    (distinct : (l.map (·.1)).Nodup) (mem : (i, v) ∈ l) : value? (l.foldl put s) i = some v := by
  obtain ⟨before, after, rfl⟩ := List.append_of_mem mem
  rcases puts.held_foldl_append before after s i v with last | ⟨v', later, -⟩
  · exact last
  · rw [List.map_append, List.map_cons] at distinct
    have new := (List.nodup_cons.1 (List.nodup_append.1 distinct).2.1).1
    exact absurd (List.mem_map_of_mem later) new

end Puts

namespace SortedMap

variable {κ β : Type} [Ord κ]

/-- After an entry come those with greater keys. -/
theorem exists_split {m : SortedMap κ β} {e : κ × β} (mem : e ∈ m.entries) :
    ∃ before after, m.entries = before ++ e :: after ∧ ∀ e' ∈ after, compare e.1 e'.1 = .lt := by
  obtain ⟨before, after, split⟩ := List.append_of_mem mem
  have increasing := split ▸ m.increasing
  exact ⟨before, after, split,
    (List.pairwise_cons.1 (List.pairwise_append.1 increasing).2.1).1⟩

variable [Std.TransOrd κ] [Std.LawfulEqOrd κ]

theorem puts_insert :
    Puts get? fun (m : SortedMap κ β) (e : κ × β) => m.insert e.1 e.2 where
  self m k v := by rw [get?_insert, if_pos Std.ReflCmp.compare_self]
  other m k v k' ne := by rw [get?_insert, if_neg fun eq => ne (Std.LawfulEqCmp.eq_of_compare eq)]

end SortedMap

end Clausal
