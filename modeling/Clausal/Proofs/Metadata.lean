import Clausal.Metadata
import Clausal.Proofs.Json.Decoding
import Clausal.Proofs.Number.UnitInterval

/-!
# Metadata as JSON

Metadata that passes its check is read from its members in whatever order they come
(`Metadata.ofMembers_members`). What is read passes the check.
-/

namespace Clausal

open Decode Decode.Members Json

theorem RecordStatus.lookup_words (s : RecordStatus) : words.lookup s.text = some s := by
  cases s <;> decide

namespace Metadata

/-- The values under provenance come from JSON, where no key of an object is repeated. -/
def IsOrdered (m : Metadata) : Prop := ∀ p ∈ m.provenance, ∀ e ∈ p.entries, e.2.IsOrdered

/-! ### Writing -/

theorem keys_members (m : Metadata) : (m.members.map (·.1)).Sublist keys := by
  unfold members
  simp only [List.append_assoc]
  iterate 8 apply keys_member?_append
  exact keys_member? ..

theorem nodup_members (m : Metadata) : (m.members.map (·.1)).Nodup :=
  (by decide : keys.Nodup).sublist m.keys_members

theorem isProbability_of_check {m : Metadata} (ok : m.check = .ok ()) :
    ∀ c ∈ m.confidence, c.IsProbability := by
  intro c hc
  unfold check at ok
  rw [Option.mem_def.1 hc] at ok
  dsimp only at ok
  split at ok
  case isTrue inside => exact (Binary64.inUnitInterval_iff c).1 inside
  case isFalse => cases ok

theorem isOrdered_of_mem_members {m : Metadata} (ordered : m.IsOrdered) :
    ∀ e ∈ m.members, e.2.IsOrdered := by
  have texts (xs : List String) : (ofStrings xs).IsOrdered := by
    refine areOrdered_iff.2 fun j hj => ?_
    obtain ⟨s, -, rfl⟩ := List.mem_map.1 hj
    trivial
  have provenance : ∀ p ∈ m.provenance, (obj p.entries).IsOrdered := fun p hp =>
    ⟨p.increasing, haveOrderedValues_iff.2 (ordered p hp)⟩
  have confidence (c : Binary64) : (ofFloat c).IsOrdered := by
    unfold ofFloat
    split <;> trivial
  unfold members
  simp only [List.forall_mem_append, forall_mem_member?_map, texts, confidence, implies_true, and_true]
  exact ⟨⟨⟨⟨⟨⟨fun _ _ => trivial, fun _ _ => trivial⟩, fun _ _ => trivial⟩, fun _ _ => trivial⟩,
    fun _ _ => trivial⟩, fun _ _ => trivial⟩, provenance⟩

/-! ### Reading -/

/-- Metadata is read from its members in the order of their keys. -/
theorem decode_reads {m : Metadata} (ok : m.check = .ok ()) (ordered : m.IsOrdered) :
    decode.Reads (.obj (SortedMap.ofList m.members).entries) m := by
  intro r
  set members := (SortedMap.ofList m.members).entries with members_eq
  have perm : members.Perm m.members := SortedMap.perm_ofList m.nodup_members
  have distinct : (members.map (·.1)).Nodup := m.nodup_members.perm (perm.map _).symm
  have plain : ∀ k ∈ keys, declaredName? (keys.map field) k = some k := by decide
  have found (k : String) : members.lookup k = m.members.lookup k :=
    SortedMap.lookup_perm perm distinct k
  rw [decode, record_ofJson distinct fun e he =>
    plain e.1 (m.keys_members.subset ((perm.map _).mem_iff.1 (List.mem_map_of_mem he)))]
  simp only [bind, Except.bind, pure, Except.pure]
  rw [optional_ok (x := m.confidence) (f := ofFloat) ?_ fun c hc =>
      have finite := (isProbability_of_check ok c hc).1
      ⟨float_reads finite, ofFloat_ne_null finite⟩,
    optional_text (x := m.evidenceId), optional_text (x := m.ingestedAt),
    optional_text (x := m.observedAt),
    optional_ok (x := m.provenance) (f := fun p => .obj p.entries) ?_ fun p hp =>
      ⟨map_json_reads (ordered p hp), obj_ne_null _⟩,
    optional_text (x := m.source), optional_word RecordStatus.lookup_words (x := m.status),
    optional_ok (x := m.tags) (f := ofStrings) ?_ fun xs _ => ⟨texts_reads xs, arr_ne_null _⟩,
    optional_text (x := m.traceId)]
  all_goals
    rw [found]
    simp [Metadata.members, List.lookup_append, lookup_member?]

/-- **Metadata is read from its members.** -/
theorem ofMembers_members {m : Metadata} (ok : m.check = .ok ()) (ordered : m.IsOrdered) :
    ofMembers (SortedMap.ofList m.members).entries = .ok m := by
  have known : ((SortedMap.ofList m.members).keys.filter fun k => !keys.contains k) = [] := by
    refine List.filter_eq_nil_iff.2 fun k hk => ?_
    have mem := ((SortedMap.perm_ofList m.nodup_members).map (·.1)).mem_iff.1 hk
    simpa using m.keys_members.subset mem
  have read : Decode.ofJson decode (.obj (SortedMap.ofList m.members).entries) = .ok m :=
    (decode_reads ok ordered).ofJson
  unfold ofMembers
  rw [SortedMap.ofList_entries, known, read]
  simp only [ne_eq, not_true_eq_false, if_false]
  exact (congrArg (· >>= fun _ => .ok m) ok)

theorem check_of_ofMembers {members : List (String × Json)} {m : Metadata}
    (h : ofMembers members = .ok m) : m.check = .ok () := by
  unfold ofMembers at h
  dsimp only at h
  split at h
  · cases h
  · obtain ⟨m', -, h⟩ := bind_eq_ok.1 h
    obtain ⟨_, checked, h⟩ := bind_eq_ok.1 h
    cases h
    exact checked

theorem isOrdered_of_decode {r : Reading} {d : Document} {m : Metadata}
    (h : decode r d = .ok m) : m.IsOrdered := by
  obtain ⟨present, -, h⟩ := bind_eq_ok.1 h
  obtain ⟨confidence, -, h⟩ := bind_eq_ok.1 h
  obtain ⟨evidenceId, -, h⟩ := bind_eq_ok.1 h
  obtain ⟨ingestedAt, -, h⟩ := bind_eq_ok.1 h
  obtain ⟨observedAt, -, h⟩ := bind_eq_ok.1 h
  obtain ⟨provenance, read, h⟩ := bind_eq_ok.1 h
  obtain ⟨source, -, h⟩ := bind_eq_ok.1 h
  obtain ⟨status, -, h⟩ := bind_eq_ok.1 h
  obtain ⟨tags, -, h⟩ := bind_eq_ok.1 h
  obtain ⟨traceId, -, h⟩ := bind_eq_ok.1 h
  cases h
  rintro p rfl
  obtain ⟨d, read⟩ := exists_of_optional read
  exact isOrdered_of_map read

theorem isOrdered_of_ofMembers {members : List (String × Json)} {m : Metadata}
    (h : ofMembers members = .ok m) : m.IsOrdered := by
  unfold ofMembers at h
  dsimp only at h
  split at h
  · cases h
  · obtain ⟨m', decoded, h⟩ := bind_eq_ok.1 h
    obtain ⟨-, -, h⟩ := bind_eq_ok.1 h
    cases h
    cases read : Decode.ofJson decode (.obj members) with
    | error e =>
      rw [read] at decoded
      cases decoded
    | ok _ =>
      rw [read] at decoded
      cases decoded
      exact isOrdered_of_decode read

end Metadata

end Clausal
