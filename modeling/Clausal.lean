import Clausal.SortedMap
import Clausal.Distinct
import Clausal.Text.Blank
import Clausal.Text.Basic
import Clausal.Text.Quoted
import Clausal.Number.Rounding
import Clausal.Number.Style
import Clausal.Json.Basic
import Clausal.Json.Spelling
import Clausal.Json.Canonical
import Clausal.Json.Layout
import Clausal.Json.Reader
import Clausal.Json.Decode
import Clausal.Digest.Sha256
import Clausal.Value
import Clausal.Digest.Identifier
import Clausal.Schema.Error
import Clausal.Schema.Argument
import Clausal.Schema.Signature
import Clausal.Schema.Basic
import Clausal.Schema.Payload
import Clausal.Filter
import Clausal.Registry.Index
import Clausal.Registry.Basic
import Clausal.Registry.Payload
import Clausal.Metadata
import Clausal.Record.Basic
import Clausal.Record.Payload
import Clausal.Record.Store
import Clausal.Expr
import Clausal.Rule.Basic
import Clausal.Rule.Expression
import Clausal.Rule.Payload
import Clausal.Library.Basic
import Clausal.Library.Handlers
import Clausal.Library.Template
import Clausal.Render.Config
import Clausal.Validation.Basic
import Clausal.Render.Atom
import Clausal.Render.Writer
import Clausal.Pipeline
import Clausal.Command.Arguments
import Clausal.Command.Basic
import Clausal.Main
import Clausal.Proofs.Outcomes
import Clausal.Proofs.Maps
import Clausal.Proofs.Number.UnitInterval
import Clausal.Proofs.Number.Interval
import Clausal.Proofs.Number.Nearest
import Clausal.Proofs.Text.Blank
import Clausal.Proofs.Json.Decoding
import Clausal.Proofs.Json.Layout
import Clausal.Proofs.Json.Leaves
import Clausal.Proofs.Json.Reading
import Clausal.Proofs.Json.Unambiguous
import Clausal.Proofs.Json.Floats
import Clausal.Proofs.Json.Canonical
import Clausal.Proofs.Value
import Clausal.Proofs.Metadata
import Clausal.Proofs.Schema.Payload
import Clausal.Proofs.Schema.Normal
import Clausal.Proofs.Schema.Identity
import Clausal.Proofs.Schema.Spelled
import Clausal.Proofs.Schema.Shorthand
import Clausal.Proofs.Schema.Sides
import Clausal.Proofs.Schema.WellFormed
import Clausal.Proofs.Schema.Accesses
import Clausal.Proofs.Library.Predicate
import Clausal.Proofs.Library.Declared
import Clausal.Proofs.Registry.Index
import Clausal.Proofs.Registry.Built
import Clausal.Proofs.Registry.Scopes
import Clausal.Proofs.Registry.Lookups
import Clausal.Proofs.Registry.Triples
import Clausal.Proofs.Registry.Stored
import Clausal.Proofs.Registry.Embedded
import Clausal.Proofs.Registry.Order
import Clausal.Proofs.Record.Accepted
import Clausal.Proofs.Record.Stored
import Clausal.Proofs.Record.KeyValues
import Clausal.Proofs.Record.Joining
import Clausal.Proofs.Record.Verified
import Clausal.Proofs.Rule.Expression
import Clausal.Proofs.Rule.Stored
import Clausal.Proofs.Validation.Violation
import Clausal.Proofs.Validation.Exact
import Clausal.Proofs.Render.Phrase
import Clausal.Proofs.Render.Clause
import Clausal.Proofs.Render.Words
import Clausal.Proofs.Render.Pieces
import Clausal.Proofs.Render.Layout
import Clausal.Proofs.Render.Tree
import Clausal.Proofs.Render.Unambiguous
import Clausal.Proofs.Render.Variables
import Clausal.Proofs.Render.Validated
import Clausal.Proofs.Rule.Nodes
import Clausal.Proofs.Validation.Goals
import Clausal.Proofs.Render.Naming
import Clausal.Proofs.Render.Parts
import Clausal.Proofs.Render.ClauseParts
import Clausal.Proofs.Render.Blocks
import Clausal.Proofs.Render.Lines
import Clausal.Proofs.Render.Functors
import Clausal.Proofs.Render.Joins
import Clausal.Proofs.Validation.Constructed
import Clausal.Proofs.Render.Independent
import Clausal.Proofs.Render.Agreement
import Clausal.Proofs.Record.Cells
import Clausal.Proofs.Record.Shapes
import Clausal.Proofs.Record.Represents
import Clausal.Proofs.Record.Kept
import Clausal.Proofs.Record.Expanded
import Clausal.Proofs.Record.Positional
import Clausal.Proofs.Record.Evidence
import Clausal.Proofs.Validation.Wider
import Clausal.Proofs.Render.Constants
import Clausal.Proofs.Render.Quoted
import Clausal.Proofs.Render.NamingLaws
import Clausal.Proofs.Render.Facts
import Clausal.Proofs.Render.Endpoints
import Clausal.Proofs.Render.Bindings
import Clausal.Proofs.Render.KeyVariables
import Clausal.Proofs.Library.Template
import Clausal.Proofs.Render.Queries
import Clausal.Proofs.Render.Ground
import Clausal.Proofs.Render.Sections
import Clausal.Proofs.Schema.Unnamed
import Clausal.Proofs.Registry.Filters
import Clausal.Proofs.Registry.ViewStored
import Clausal.Proofs.Library.Registered
