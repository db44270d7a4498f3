import Scaffold.CommandLine.Invocation
import Scaffold.CommandLine.Run
import Scaffold.CommandLine.Session
import Scaffold.Decimal.Binary64
import Scaffold.Decimal.Layout
import Scaffold.Decimal.Numeral
import Scaffold.Decimal.Shortest
import Scaffold.Event
import Scaffold.Excerpt.Arguments
import Scaffold.Excerpt.Balanced
import Scaffold.Excerpt.Basic
import Scaffold.Extraction.Attributes
import Scaffold.Extraction.Extractor
import Scaffold.Extraction.Literal
import Scaffold.Extraction.Outline
import Scaffold.Extraction.Registry
import Scaffold.Extraction.Remark
import Scaffold.Extraction.Slots
import Scaffold.Fault
import Scaffold.Files
import Scaffold.Json.Basic
import Scaffold.Json.Parser
import Scaffold.Json.Printer
import Scaffold.Json.Problem
import Scaffold.Json.Scalar
import Scaffold.Location
import Scaffold.LogLevel
import Scaffold.Main
import Scaffold.Merge.Plan
import Scaffold.Merge.Section
import Scaffold.Merge.Sync
import Scaffold.Model.Access
import Scaffold.Model.Class
import Scaffold.Model.ClassKind
import Scaffold.Model.MacroType
import Scaffold.Named
import Scaffold.Proofs.Bytes.Checked
import Scaffold.Proofs.Bytes.Cursors
import Scaffold.Proofs.Bytes.Forests
import Scaffold.Proofs.Bytes.Invocations
import Scaffold.Proofs.Bytes.Locations
import Scaffold.Proofs.Bytes.Markers
import Scaffold.Proofs.Bytes.Remarks
import Scaffold.Proofs.Bytes.Scopes
import Scaffold.Proofs.Bytes.Sections
import Scaffold.Proofs.Bytes.Slices
import Scaffold.Proofs.Bytes.Sources
import Scaffold.Proofs.Bytes.Tokens
import Scaffold.Proofs.CommandLine.Effects
import Scaffold.Proofs.CommandLine.Layers
import Scaffold.Proofs.CommandLine.Sessions
import Scaffold.Proofs.Extraction.Access
import Scaffold.Proofs.Extraction.Adjoining
import Scaffold.Proofs.Extraction.Arrival
import Scaffold.Proofs.Extraction.BlankEnds
import Scaffold.Proofs.Extraction.Bodies
import Scaffold.Proofs.Extraction.Closed
import Scaffold.Proofs.Extraction.Commands
import Scaffold.Proofs.Extraction.Cursor
import Scaffold.Proofs.Extraction.Cutting
import Scaffold.Proofs.Extraction.Defects
import Scaffold.Proofs.Extraction.Described
import Scaffold.Proofs.Extraction.Description
import Scaffold.Proofs.Extraction.Enclosures
import Scaffold.Proofs.Extraction.Enumerators
import Scaffold.Proofs.Extraction.Excerpts
import Scaffold.Proofs.Extraction.Groups
import Scaffold.Proofs.Extraction.Heads
import Scaffold.Proofs.Extraction.Keywords
import Scaffold.Proofs.Extraction.Landmarks
import Scaffold.Proofs.Extraction.Layout
import Scaffold.Proofs.Extraction.LineEnds
import Scaffold.Proofs.Extraction.Literals
import Scaffold.Proofs.Extraction.Namespaces
import Scaffold.Proofs.Extraction.Notes
import Scaffold.Proofs.Extraction.Operators
import Scaffold.Proofs.Extraction.Ordinals
import Scaffold.Proofs.Extraction.OwnLines
import Scaffold.Proofs.Extraction.Partition
import Scaffold.Proofs.Extraction.Patterns
import Scaffold.Proofs.Extraction.Payloads
import Scaffold.Proofs.Extraction.Places
import Scaffold.Proofs.Extraction.Positions
import Scaffold.Proofs.Extraction.Redaction
import Scaffold.Proofs.Extraction.Relocation
import Scaffold.Proofs.Extraction.Renumbered
import Scaffold.Proofs.Extraction.Segments
import Scaffold.Proofs.Extraction.Silence
import Scaffold.Proofs.Extraction.Spellings
import Scaffold.Proofs.Extraction.Squeezed
import Scaffold.Proofs.Extraction.Structure
import Scaffold.Proofs.Extraction.Trace
import Scaffold.Proofs.Extraction.Valued
import Scaffold.Proofs.Extraction.Walk
import Scaffold.Proofs.Faults
import Scaffold.Proofs.Json.Grammar
import Scaffold.Proofs.Json.Groups
import Scaffold.Proofs.Json.Locality
import Scaffold.Proofs.Json.Numerals
import Scaffold.Proofs.Json.Scalars
import Scaffold.Proofs.Json.Values
import Scaffold.Proofs.Locations
import Scaffold.Proofs.Merge.Agreement
import Scaffold.Proofs.Merge.Authority
import Scaffold.Proofs.Merge.Commutation
import Scaffold.Proofs.Merge.Expansion
import Scaffold.Proofs.Merge.Failure
import Scaffold.Proofs.Merge.Frame
import Scaffold.Proofs.Merge.Graft
import Scaffold.Proofs.Merge.Identity
import Scaffold.Proofs.Merge.Independence
import Scaffold.Proofs.Merge.Moves
import Scaffold.Proofs.Merge.Regeneration
import Scaffold.Proofs.Merge.Regions
import Scaffold.Proofs.Merge.Reparse
import Scaffold.Proofs.Merge.Splice
import Scaffold.Proofs.Merge.Stability
import Scaffold.Proofs.Merge.Substitution
import Scaffold.Proofs.Merge.Updates
import Scaffold.Proofs.Results
import Scaffold.Proofs.Tag.Completed
import Scaffold.Proofs.Tag.Composed
import Scaffold.Proofs.Tag.Declared
import Scaffold.Proofs.Tag.Defects
import Scaffold.Proofs.Tag.FirstDefect
import Scaffold.Proofs.Tag.Grammar
import Scaffold.Proofs.Tag.Layout
import Scaffold.Proofs.Tag.Legible
import Scaffold.Proofs.Tag.Lossless
import Scaffold.Proofs.Tag.MarkerLine
import Scaffold.Proofs.Tag.Order
import Scaffold.Proofs.Tag.Revalued
import Scaffold.Proofs.Tag.RevaluedForest
import Scaffold.Proofs.Tag.RoundTrip
import Scaffold.Proofs.Tag.Standalone
import Scaffold.Proofs.Tag.WellFormed
import Scaffold.Proofs.Tag.Written
import Scaffold.Proofs.Text.Edits
import Scaffold.Proofs.Text.Places
import Scaffold.Proofs.Text.Positions
import Scaffold.Proofs.Text.Trimming
import Scaffold.Settings.Basic
import Scaffold.Settings.Configuration
import Scaffold.Settings.Document
import Scaffold.Settings.Path
import Scaffold.Tag.Attributes
import Scaffold.Tag.Directive
import Scaffold.Tag.Forest
import Scaffold.Tag.Marker
import Scaffold.Tag.Name
import Scaffold.Tag.Parser
import Scaffold.Tag.Piece
import Scaffold.Text.Basic
import Scaffold.Text.Escaped
import Scaffold.Text.Keyed
import Scaffold.Text.Utf8
import Scaffold.Text.Word
import Scaffold.Token.Basic
import Scaffold.Token.Lexer
import Scaffold.Token.Stream
import Scaffold.Toml.Document
import Scaffold.Toml.Lexical
import Scaffold.Toml.Moment
import Scaffold.Toml.Quoted
import Scaffold.Toml.Value
import Scaffold.Yaml.Printer
import Scaffold.Yaml.Scalar
