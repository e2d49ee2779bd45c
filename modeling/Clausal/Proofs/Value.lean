import Clausal.Proofs.Json.Decoding
import Clausal.Value

/-!
# Scalars as JSON

A scalar is read as it was written (`Value.decode_reads`), unless it is a floating-point number that
is not finite: of such a number nothing is written.
-/

namespace Clausal

open Decode

namespace Value

/-- A value that JSON can hold. -/
def IsFinite : Value → Prop
  | .float x => x.isFinite = true
  | _ => True

theorem ofJsonInt_toInt (i : Int64) : ofJsonInt i.toInt = .int i := by
  have inside : Int64.minValue.toInt ≤ i.toInt ∧ i.toInt ≤ Int64.maxValue.toInt :=
    ⟨i.minValue_le_toInt, i.toInt_le⟩
  rw [ofJsonInt, if_pos inside, Int64.ofInt_toInt]

/-- A finite value is read as it was written. -/
theorem decode_reads {v : Value} (finite : v.IsFinite) : decode.Reads v.toJson v := by
  intro r
  cases v with
  | bool b => rfl
  | int i => exact congrArg Except.ok (ofJsonInt_toInt i)
  | float x =>
    rw [toJson, Json.ofFloat_of_isFinite finite]
    rfl
  | str s => rfl

end Value

namespace FieldMap

def IsFinite (m : FieldMap) : Prop := ∀ e ∈ m.entries, e.2.IsFinite

theorem decode_reads {m : FieldMap} (finite : m.IsFinite) : decode.Reads m.toJson m :=
  map_reads fun e he => Value.decode_reads (finite e he)

end FieldMap

end Clausal
