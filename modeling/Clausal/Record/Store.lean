import Clausal.Record.Basic
import Clausal.Registry.View

/-!
# Record stores

A store holds records in the order in which they came in. A query picks the records whose predicate
a view lets through and a filter admits.
-/

namespace Clausal

/-- Records in the order in which they came in. -/
structure RecordStore where
  records : List Record

namespace RecordStore

def empty : RecordStore := ⟨[]⟩

def push (s : RecordStore) (r : Record) : RecordStore := ⟨s.records ++ [r]⟩

def size (s : RecordStore) : Nat := s.records.length

/-- Whether a record is of a predicate that a view lets through and a filter, if there is one,
admits. -/
def isWanted (view : View) (filter : Option Filter) (r : Record) : Except SchemaError Bool :=
  if view.allows r.schemaId then do
    let s ← view.get r.schemaId
    return filter.all (·.admits s)
  else .ok false

/-- The wanted ones of some records. -/
def pick (view : View) (filter : Option Filter) : List Record → Except SchemaError (List Record)
  | [] => .ok []
  | r :: rest => do
    let wanted ← isWanted view filter r
    let others ← pick view filter rest
    return if wanted then r :: others else others

/-- The records of predicates that a view lets through and a filter, if there is one, admits. -/
def query (s : RecordStore) (view : View) (filter : Option Filter) :
    Except SchemaError (List Record) :=
  pick view filter s.records

end RecordStore

end Clausal
