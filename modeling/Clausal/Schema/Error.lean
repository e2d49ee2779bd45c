import Clausal.Json.Decode
import Clausal.Schema.Kind

/-!
# Errors about schemas, records and the terms over them

Each error names what it is about, so that its message can be written from it alone.
-/

namespace Clausal

/-- Which name is empty. -/
inductive NameRole
  | argument
  | predicate
deriving DecidableEq

inductive TermsFault
  | relationShape
  | propCount (expected found : Nat)
  | noValue (argument : String)
deriving DecidableEq

inductive EndpointFault
  | notEntity
  | recordSchema (found expected : String)
  | referenceSchema (found expected : String)
  | scalar
  | notKeyField (key : String)
deriving DecidableEq

/-- The identifiers that a stored record declares. -/
inductive IdentityField
  | entity
  | endpoint (side : Side)
  | record
deriving DecidableEq

inductive SchemaError
  | emptyArgSpec (spec : String)
  | halfArgSpec (spec : String)
  | conflictingDatatype (spec datatype : String)
  | ambiguousArgName (spec name : String)
  | duplicateArgName (predicate name : String)
  | emptyName (what : NameRole)
  | unknownMergePolicy (text : String)
  | endpointNotEntity (relation : String) (side : Side) (found : String)
  | unknownKeyField (predicate field : String)
  | identifierMismatch (name declared computed : String)
  | arityDeclarationMismatch (name : String) (declared computed : Nat)
  | duplicateIdentifier (schemaId name : String)
  | unresolvedEndpoint (relation schemaId : String)
  | unknownSchemaId (schemaId : String)
  | unknownPredicate (kind : Kind) (name : String)
  | ambiguousPredicate (kind : Kind) (name : String) (count : Nat)
  | unknownRelationTriple (name sub obj : String)
  | notInParent (schemaId : String)
  | notInView (schemaId : String)
  | unsupportedVersion (version : Nat)
  | arityMismatch (predicate : String) (expected found : Nat)
  | datatypeMismatch (predicate : String) (position : Nat) (expected found : String)
  | valueTypeMismatch (predicate field datatype value : String)
  | probabilityOutOfRange (context : String) (value : Binary64)
  | unknownMetadataKeys (keys : List String)
  | metadataNotObject
  | malformedMetadata (why : DecodeError)
  | confidenceOutOfRange (value : Binary64)
  | missingKeyFields (predicate : String) (fields : List String)
  | missingEndpointKeyFields (relation : String) (side : Side) (fields : List String)
  | unknownProps (predicate : String) (props : List String)
  | missingProps (relation : String) (props : List String)
  | duplicateProps (relation : String) (props : List String)
  | ambiguousEndpointKey (relation key : String)
  | invalidEndpoint (relation : String) (side : Side) (why : EndpointFault)
  | heuristicUnavailable (relation : String)
  | invalidTerms (predicate : String) (why : TermsFault)
  | kindMismatch (schemaId : String) (expected found : Kind)
  | recordIdentityMismatch (schemaId : String) (field : IdentityField) (declared computed : String)
  | missingIdentity (schemaId : String) (field : IdentityField)
  | unexpectedRecordId (schemaId : String)
  | endpointKeysUnavailable (schemaId : String)
  | schemaMismatch (record schema : String)
  | emptyVariableName (position : Nat) (predicate : String)
  | emptyQuery
  | malformed (why : Json.TextError)
deriving DecidableEq

namespace NameRole

def text : NameRole → String
  | .argument => "argument name"
  | .predicate => "predicate name"

end NameRole

namespace TermsFault

def message : TermsFault → String
  | relationShape => "entity predicates take positional or keyed terms"
  | propCount expected found =>
    s!"expected {Text.decimal expected} prop values, got {Text.decimal found}"
  | noValue argument => s!"record has no value for `{argument}`"

end TermsFault

namespace EndpointFault

def message : EndpointFault → String
  | notEntity => "must be an entity record"
  | recordSchema found expected => s!"record schema_id {found} is not {expected}"
  | referenceSchema found expected => s!"reference schema_id {found} is not {expected}"
  | scalar => "scalar values need heuristic resolution"
  | notKeyField key => s!"`{key}` is not an endpoint key field"

end EndpointFault

namespace IdentityField

def text : IdentityField → String
  | entity => "entity_id"
  | endpoint .sub => "sub_entity_id"
  | endpoint .obj => "obj_entity_id"
  | record => "record_id"

end IdentityField

namespace SchemaError

def message : SchemaError → String
  | emptyArgSpec spec => s!"invalid argument spec `{spec}`: empty"
  | halfArgSpec spec => s!"invalid argument spec `{spec}`: expected `Name:type`"
  | conflictingDatatype spec datatype =>
    s!"invalid argument spec `{spec}`: conflicting datatype `{datatype}`"
  | ambiguousArgName spec name =>
    s!"argument spec `{spec}` already names the argument; conflicting explicit name `{name}`"
  | duplicateArgName predicate name =>
    s!"predicate `{predicate}` declares argument `{name}` more than once"
  | emptyName what => s!"{what.text} must be a non-empty string"
  | unknownMergePolicy text =>
    s!"unknown merge policy `{text}` (expected max|latest|noisy_or|overwrite|keep_all)"
  | endpointNotEntity relation side found =>
    s!"relation `{relation}`: {side.text} endpoint `{found}` is not an entity predicate"
  | unknownKeyField predicate field =>
    s!"predicate `{predicate}`: key field `{field}` is not in the signature"
  | identifierMismatch name declared computed =>
    s!"predicate `{name}`: declared schema_id {declared} does not match recomputed {computed}"
  | arityDeclarationMismatch name declared computed =>
    s!"predicate `{name}`: declared arity {Text.decimal declared} does not match signature " ++
      s!"length {Text.decimal computed}"
  | duplicateIdentifier schemaId name => s!"duplicate predicate schema_id {schemaId} (`{name}`)"
  | unresolvedEndpoint relation schemaId =>
    s!"relation `{relation}`: endpoint schema_id {schemaId} is not registered in the same batch"
  | unknownSchemaId schemaId => s!"unknown predicate schema_id: {schemaId}"
  | unknownPredicate kind name => s!"no {kind.text} predicate named `{name}`"
  | ambiguousPredicate kind name count =>
    s!"{Text.decimal count} {kind.text} predicates are named `{name}`; " ++
      "look it up by schema_id instead"
  | unknownRelationTriple name sub obj => s!"no relation `{name}` between {sub} and {obj}"
  | notInParent schemaId => s!"predicate schema_id {schemaId} is not present in the parent registry"
  | notInView schemaId => s!"predicate schema_id {schemaId} is outside this view"
  | unsupportedVersion version => s!"unsupported registry payload version {Text.decimal version}"
  | arityMismatch predicate expected found =>
    s!"predicate `{predicate}`: expected {Text.decimal expected} terms, got {Text.decimal found}"
  | datatypeMismatch predicate position expected found =>
    s!"predicate `{predicate}` argument {Text.decimal position}: " ++
      s!"constant datatype `{found}` does not match `{expected}`"
  | valueTypeMismatch predicate field datatype value =>
    s!"predicate `{predicate}` field `{field}`: value {value} is not a valid `{datatype}`"
  | probabilityOutOfRange context value =>
    s!"{context}: probability {value.text .plain} is outside [0.0, 1.0]"
  | unknownMetadataKeys keys => s!"unknown meta keys: {Text.quoteList keys}"
  | metadataNotObject => "meta.meta: must be an object"
  | malformedMetadata why => s!"meta.meta: {why.message}"
  | confidenceOutOfRange value => s!"meta.confidence: {value.text .plain} is outside [0.0, 1.0]"
  | missingKeyFields predicate fields =>
    s!"predicate `{predicate}`: missing key fields {Text.quoteList fields}"
  | missingEndpointKeyFields relation side fields =>
    s!"relation `{relation}`: {side.text} endpoint missing key fields {Text.quoteList fields}"
  | unknownProps predicate props =>
    s!"predicate `{predicate}`: unknown props {Text.quoteList props}"
  | missingProps relation props => s!"relation `{relation}`: missing props {Text.quoteList props}"
  | duplicateProps relation props =>
    s!"relation `{relation}`: props duplicated across inline and nested forms " ++
      Text.quoteList props
  | ambiguousEndpointKey relation key =>
    s!"relation `{relation}`: key `{key}` matches both endpoints; prefix it with sub_ or obj_"
  | invalidEndpoint relation side why =>
    s!"relation `{relation}`: {side.text} endpoint {why.message}"
  | heuristicUnavailable relation =>
    s!"relation `{relation}`: heuristic resolution needs exactly one key field per endpoint"
  | invalidTerms predicate why => s!"predicate `{predicate}`: {why.message}"
  | kindMismatch schemaId expected found =>
    s!"schema_id {schemaId}: record kind `{found.text}` does not match schema kind " ++
      s!"`{expected.text}`"
  | recordIdentityMismatch schemaId field declared computed =>
    s!"record for {schemaId}: declared {field.text} {declared} does not match recomputed {computed}"
  | missingIdentity schemaId field => s!"record for {schemaId}: missing {field.text}"
  | unexpectedRecordId schemaId =>
    s!"record for {schemaId}: record_id is only carried by keep_all schemas"
  | endpointKeysUnavailable schemaId =>
    s!"relation record for {schemaId} has no endpoint key values in memory; " ++
      "it was restored from a canonical payload"
  | schemaMismatch record schema => s!"record schema_id {record} does not match schema {schema}"
  | emptyVariableName position predicate =>
    s!"invalid term: empty variable name at argument {Text.decimal position} of `{predicate}`"
  | emptyQuery => "query needs either a predicate schema or a predicate id"
  | malformed why => s!"malformed payload: {why.message}"

end SchemaError

end Clausal
