/-!
# Kinds of predicates, sides of relations
-/

namespace Clausal

/-- A predicate describes entities or relations between them. -/
inductive Kind
  | fact
  | rel
deriving DecidableEq, Repr, Ord

namespace Kind

def text : Kind → String
  | .fact => "fact"
  | .rel => "rel"

def words : List (String × Kind) := [("fact", .fact), ("rel", .rel)]

instance : Std.TransOrd Kind where
  eq_swap {a b} := by cases a <;> cases b <;> rfl
  isLE_trans {a b c} := by cases a <;> cases b <;> cases c <;> decide

end Kind

/-- The two ends of a relation. -/
inductive Side
  | sub
  | obj
deriving DecidableEq, Repr

namespace Side

def text : Side → String
  | .sub => "sub"
  | .obj => "obj"

/-- How the names of the key fields of a side start in the signature of a relation. -/
def start : Side → String
  | .sub => "sub_"
  | .obj => "obj_"

end Side

end Clausal
