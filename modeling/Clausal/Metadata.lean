import Clausal.Schema.Error
import Clausal.Value

/-!
# Metadata of records

A closed set of optional keys that say where a record comes from and how far it is to be trusted.
-/

namespace Clausal

/-- How a record came about. -/
inductive RecordStatus
  | asserted
  | inferred
  | retracted
deriving DecidableEq, Repr

namespace RecordStatus

def text : RecordStatus → String
  | .asserted => "asserted"
  | .inferred => "inferred"
  | .retracted => "retracted"

def words : List (String × RecordStatus) :=
  [("asserted", .asserted), ("inferred", .inferred), ("retracted", .retracted)]

end RecordStatus

/-- What is known about a record apart from its content. -/
structure Metadata where
  source : Option String
  observedAt : Option String
  ingestedAt : Option String
  confidence : Option Binary64
  status : Option RecordStatus
  evidenceId : Option String
  traceId : Option String
  provenance : Option (SortedMap String Json)
  tags : Option (List String)

namespace Metadata

def empty : Metadata := ⟨none, none, none, none, none, none, none, none, none⟩

/-- Whether nothing is known. -/
def isEmpty (m : Metadata) : Bool :=
  m.source.isNone && m.observedAt.isNone && m.ingestedAt.isNone && m.confidence.isNone &&
  m.status.isNone && m.evidenceId.isNone && m.traceId.isNone && m.provenance.isNone &&
  m.tags.isNone

def keys : List String :=
  ["source", "observed_at", "ingested_at", "confidence", "status", "evidence_id", "trace_id",
   "provenance", "tags"]

/-- Metadata of a document. Fields are taken in the order of their keys, so that of several faults
the first one in that order is reported. -/
def decode : Decoder Metadata := fun r d => do
  let m ← Decode.record "Meta" (keys.map Decode.field) true r d
  let confidence ← m.optional "confidence" Decode.float
  let evidenceId ← m.optional "evidence_id" Decode.text
  let ingestedAt ← m.optional "ingested_at" Decode.text
  let observedAt ← m.optional "observed_at" Decode.text
  let provenance ← m.optional "provenance" (Decode.map Decode.json)
  let source ← m.optional "source" Decode.text
  let status ← m.optional "status" (Decode.word RecordStatus.words)
  let tags ← m.optional "tags" (Decode.list Decode.text)
  let traceId ← m.optional "trace_id" Decode.text
  return ⟨source, observedAt, ingestedAt, confidence, status, evidenceId, traceId, provenance, tags⟩

/-- Fails when the confidence is no probability. -/
def check (m : Metadata) : Except SchemaError Unit :=
  match m.confidence with
  | some c => if c.inUnitInterval then .ok () else .error (.confidenceOutOfRange c)
  | none => .ok ()

/-- The metadata of an object with the given members. -/
def ofMembers (members : List (String × Json)) : Except SchemaError Metadata := do
  let unknown := (SortedMap.ofList members).keys.filter fun k => !keys.contains k
  if unknown ≠ [] then throw (.unknownMetadataKeys unknown)
  let m ← (Decode.ofJson decode (.obj members)).mapError .malformedMetadata
  m.check
  return m

/-- The metadata of a JSON value; null stands for nothing known. -/
def ofJson : Json → Except SchemaError Metadata
  | .null => .ok empty
  | .obj members => ofMembers members
  | _ => .error .metadataNotObject

/-- The members of metadata as JSON, without the keys that have no value. -/
def members (m : Metadata) : List (String × Json) :=
  Json.member? "source" (m.source.map .str) ++
  Json.member? "observed_at" (m.observedAt.map .str) ++
  Json.member? "ingested_at" (m.ingestedAt.map .str) ++
  Json.member? "confidence" (m.confidence.map .ofFloat) ++
  Json.member? "status" (m.status.map fun s => .str s.text) ++
  Json.member? "evidence_id" (m.evidenceId.map .str) ++
  Json.member? "trace_id" (m.traceId.map .str) ++
  Json.member? "provenance" (m.provenance.map fun p => .obj p.entries) ++
  Json.member? "tags" (m.tags.map .ofStrings)

def toJson (m : Metadata) : Json := .obj m.members

end Metadata

end Clausal
