import Clausal.Schema.Basic
import Clausal.SortedMap

/-!
# Indexes of schemas

The schemas of a registry are found by identifier. One pass over them, in the order of the
identifiers, notes which of them have a kind and name and which is the relation of a name between
two entities. A later relation takes the place of an earlier one of the same name between the same
entities, although their props or key fields may differ.
-/

namespace Clausal

/-- What a predicate is looked up by: its kind and name. -/
structure NameKey where
  kind : Kind
  name : String
deriving DecidableEq

namespace NameKey

instance : Ord NameKey where
  compare := compareLex (compareOn kind) (compareOn name)

instance : Std.TransOrd NameKey :=
  inferInstanceAs (Std.TransCmp (compareLex (compareOn kind) (compareOn name)))

end NameKey

/-- What a relation is looked up by: its name and the identifiers of its endpoints. -/
structure Triple where
  name : String
  sub : String
  obj : String
deriving DecidableEq

namespace Triple

instance : Ord Triple where
  compare := compareLex (compareOn name) (compareLex (compareOn sub) (compareOn obj))

instance : Std.TransOrd Triple :=
  inferInstanceAs
    (Std.TransCmp (compareLex (compareOn name) (compareLex (compareOn sub) (compareOn obj))))

end Triple

namespace Schema

def nameKey (s : Schema) : NameKey := ⟨s.kind, s.name⟩

/-- The name and the endpoints of a relation. -/
def triple? : Schema → Option Triple
  | .fact _ => none
  | .rel r => some ⟨r.name, r.sub.id, r.obj.id⟩

end Schema

/-- Schemas by their identifiers, and identifiers by what else schemas are looked up by. -/
structure SchemaIndex where
  byId : SortedMap String Schema
  byName : SortedMap NameKey (List String)
  byTriple : SortedMap Triple String

namespace SchemaIndex

/-- The identifiers that are noted for a kind and name. -/
def idsNamed (x : SchemaIndex) (key : NameKey) : List String := (x.byName.get? key).getD []

/-- The index with a schema noted by what it is looked up by. -/
def note (x : SchemaIndex) (s : Schema) : SchemaIndex where
  byId := x.byId
  byName := x.byName.insert s.nameKey (x.idsNamed s.nameKey ++ [s.id])
  byTriple := match s.triple? with
    | some t => x.byTriple.insert t s.id
    | none => x.byTriple

def ofSchemas (schemas : List Schema) : SchemaIndex :=
  let byId := SortedMap.ofList (schemas.map fun s => (s.id, s))
  byId.values.foldl note ⟨byId, .empty, .empty⟩

/-- The schemas of a kind and name. -/
def named (x : SchemaIndex) (key : NameKey) : List Schema :=
  (x.idsNamed key).filterMap x.byId.get?

/-- The relation that is noted for a name and endpoints. -/
def relation? (x : SchemaIndex) (t : Triple) : Option Schema :=
  (x.byTriple.get? t).bind x.byId.get?

end SchemaIndex

end Clausal
