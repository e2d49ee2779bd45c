/-!
# Repeated keys

The first item of a list whose key has been there before. There is none exactly when all keys are
different (`firstRepeat?_eq_none_iff`).
-/

namespace Clausal

/-- The first item whose key is among `seen` or is that of an earlier item. -/
def firstRepeat? {α : Type} (key : α → String) (seen : List String) : List α → Option α
  | [] => none
  | a :: rest => if key a ∈ seen then some a else firstRepeat? key (key a :: seen) rest

theorem firstRepeat?_eq_none_iff {α : Type} {key : α → String} {seen : List String} {l : List α} :
    firstRepeat? key seen l = none ↔ (l.map key).Nodup ∧ ∀ a ∈ l, key a ∉ seen := by
  induction l generalizing seen with
  | nil => simp [firstRepeat?]
  | cons a rest ih =>
    simp only [firstRepeat?]
    split
    · simp [*]
    · simp only [ih, List.map_cons, List.nodup_cons, List.mem_map, List.mem_cons]
      constructor
      · rintro ⟨distinct, fresh⟩
        refine ⟨⟨?_, distinct⟩, ?_⟩
        · rintro ⟨b, hb, eq⟩
          exact fresh b hb (.inl eq)
        · rintro b (rfl | hb)
          · assumption
          · exact fun h => fresh b hb (.inr h)
      · rintro ⟨⟨new, distinct⟩, fresh⟩
        refine ⟨distinct, fun b hb => ?_⟩
        rintro (eq | h)
        · exact new ⟨b, hb, eq⟩
        · exact fresh b (.inr hb) h

/-- Without a repetition the keys are different. -/
theorem nodup_of_firstRepeat? {α : Type} {key : α → String} {l : List α}
    (h : firstRepeat? key [] l = none) : (l.map key).Nodup := (firstRepeat?_eq_none_iff.1 h).1

end Clausal
