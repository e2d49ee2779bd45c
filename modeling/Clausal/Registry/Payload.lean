import Clausal.Json.Layout
import Clausal.Registry.View
import Clausal.Schema.Payload

/-!
# Stored registries

A registry is stored as the list of its schemas. Loading takes the entity schemas first, since the
relations refer to them.
-/

namespace Clausal

/-- A registry as it is stored. -/
structure RegistryPayload where
  /-- None means the current version. -/
  version : Option Nat
  predicates : List SchemaPayload
deriving DecidableEq

namespace RegistryPayload

/-- The version that is written, and the only one that is read. -/
def currentVersion : Nat := 1

def decode : Decoder RegistryPayload := fun r d => do
  let m ← Decode.record "RegistryPayload" (["version", "predicates"].map Decode.field) false r d
  return {
    version := ← m.optional "version" (Decode.natBelow UInt32.size "u32")
    predicates := ← m.required "predicates" (Decode.list SchemaPayload.decode) }

def toJson (p : RegistryPayload) : Json :=
  .obj (Json.member? "version" (p.version.map .ofNat) ++
    [("predicates", .arr (p.predicates.map SchemaPayload.toJson))])

/-- Some schemas as they are stored together. -/
def ofSchemas (schemas : List Schema) : RegistryPayload :=
  ⟨some currentVersion, schemas.map Schema.toPayload⟩

end RegistryPayload

namespace Scope

/-- The predicates as they are stored. -/
def toPayload (s : Scope) : RegistryPayload := .ofSchemas s.predicates

end Scope

namespace Registry

def toPayload (r : Registry) : RegistryPayload := .ofSchemas r.predicates

/-- The entity schemas of stored schemas, after those in `loaded`. -/
def loadFacts (loaded : List Schema) : List SchemaPayload → Except SchemaError (List Schema)
  | [] => .ok loaded
  | p :: rest => do
    let s ← Schema.ofPayload p fun _ => none
    if loaded.any (·.id == s.id) then throw (.duplicateIdentifier s.id p.name)
    loadFacts (loaded ++ [s]) rest

def ofPayload (p : RegistryPayload) : Except SchemaError Registry := do
  let version := p.version.getD RegistryPayload.currentVersion
  if version ≠ RegistryPayload.currentVersion then throw (.unsupportedVersion version)
  let facts ← loadFacts [] (p.predicates.filter (·.kind == .fact))
  let rels ← (p.predicates.filter (·.kind == .rel)).mapM fun q =>
    Schema.ofPayload q (Schema.withId? facts)
  ofList (Schema.sortById facts ++ rels)

def ofText (text : String) : Except SchemaError Registry := do
  ofPayload (← (Decode.ofText RegistryPayload.decode text).mapError .malformed)

/-- The registry as an indented JSON text. -/
def toText (r : Registry) : String := r.toPayload.toJson.indented

end Registry

end Clausal
