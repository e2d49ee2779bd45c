import Clausal.Digest.Sha256
import Clausal.Json.Canonical
import Clausal.Value

/-!
# Identifiers

Every identifier is the digest of a text that writes out what the identifier depends on. The texts
are definitions of their own, since what they determine is what their digests identify.
-/

namespace Clausal.Identifier

/-- The digest of a text, in 64 hex digits. -/
def ofText (s : String) : String := Sha256.hex s.toUTF8.toList

/-- The digest of the canonical text of a JSON value. -/
def ofJson (j : Json) : String := ofText j.canonical

def keyPairs (pairs : List (String × Value)) : Json :=
  .arr (pairs.map fun p => .arr [.str p.1, p.2.toJson])

/-- What the identifier of an entity depends on: its schema and the values of its key fields. -/
def entityText (schemaId : String) (pairs : List (String × Value)) : String :=
  schemaId ++ (keyPairs pairs).canonical

def entity (schemaId : String) (pairs : List (String × Value)) : String :=
  ofText (entityText schemaId pairs)

/-- What the identifier of a record depends on: its schema, the entities it is about and the
evidence for it. -/
def recordText (schemaId : String) (entities : List String) (evidence : String) : String :=
  schemaId ++ String.join entities ++ evidence

def record (schemaId : String) (entities : List String) (evidence : String) : String :=
  ofText (recordText schemaId entities evidence)

end Clausal.Identifier
