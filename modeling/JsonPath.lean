import JsonPath.Analysis.Dynamic
import JsonPath.Analysis.Static
import JsonPath.Check
import JsonPath.Command
import JsonPath.DataType
import JsonPath.DataType.Algebra
import JsonPath.DataType.Printer
import JsonPath.DataType.Step
import JsonPath.DataType.Subtype
import JsonPath.Diagnostic
import JsonPath.Double
import JsonPath.Double.Decimal
import JsonPath.Environment
import JsonPath.Environment.Standard
import JsonPath.Evaluation.Event
import JsonPath.Evaluation.Result
import JsonPath.Evaluation.Select
import JsonPath.Evaluation.Slice
import JsonPath.Evaluation.Strict
import JsonPath.Fields
import JsonPath.Json
import JsonPath.Json.Printer
import JsonPath.Json.Reader
import JsonPath.Location
import JsonPath.Location.Edit
import JsonPath.Location.Pointer
import JsonPath.Main
import JsonPath.NameSet
import JsonPath.Number
import JsonPath.Number.Shortest
import JsonPath.Pattern.Grammar
import JsonPath.Pattern.Reader
import JsonPath.Pattern.Regex
import JsonPath.Power
import JsonPath.Proofs.Analysis.Known
import JsonPath.Proofs.Analysis.Static
import JsonPath.Proofs.Check.Accepted
import JsonPath.Proofs.Check.Bounds
import JsonPath.Proofs.Check.Kinds
import JsonPath.Proofs.DataType.Algebra
import JsonPath.Proofs.DataType.Bare
import JsonPath.Proofs.DataType.Change
import JsonPath.Proofs.DataType.Closed
import JsonPath.Proofs.DataType.Definite
import JsonPath.Proofs.DataType.Descendants
import JsonPath.Proofs.DataType.Describes
import JsonPath.Proofs.DataType.Difference
import JsonPath.Proofs.DataType.Distinct
import JsonPath.Proofs.DataType.Exact
import JsonPath.Proofs.DataType.Heedless
import JsonPath.Proofs.DataType.Image
import JsonPath.Proofs.DataType.Inhabited
import JsonPath.Proofs.DataType.Join
import JsonPath.Proofs.DataType.Known
import JsonPath.Proofs.DataType.Lattice
import JsonPath.Proofs.DataType.Location
import JsonPath.Proofs.DataType.Meet
import JsonPath.Proofs.DataType.Membership
import JsonPath.Proofs.DataType.Monotone
import JsonPath.Proofs.DataType.Narrower
import JsonPath.Proofs.DataType.Normal
import JsonPath.Proofs.DataType.Occurrence
import JsonPath.Proofs.DataType.Order
import JsonPath.Proofs.DataType.Printed
import JsonPath.Proofs.DataType.Reduced
import JsonPath.Proofs.DataType.Restriction
import JsonPath.Proofs.DataType.Step
import JsonPath.Proofs.DataType.Subtype
import JsonPath.Proofs.DataType.Union
import JsonPath.Proofs.DataType.Unnumbered
import JsonPath.Proofs.Environment.Faithful
import JsonPath.Proofs.Environment.Honest
import JsonPath.Proofs.Evaluation.Accounts
import JsonPath.Proofs.Evaluation.Canonical
import JsonPath.Proofs.Evaluation.Comparison
import JsonPath.Proofs.Evaluation.Complete
import JsonPath.Proofs.Evaluation.Coverage
import JsonPath.Proofs.Evaluation.Descent
import JsonPath.Proofs.Evaluation.Located
import JsonPath.Proofs.Evaluation.Plain
import JsonPath.Proofs.Evaluation.Progression
import JsonPath.Proofs.Evaluation.Reports
import JsonPath.Proofs.Evaluation.Since
import JsonPath.Proofs.Evaluation.Singular
import JsonPath.Proofs.Evaluation.Slices
import JsonPath.Proofs.Evaluation.Strict
import JsonPath.Proofs.Evaluation.Trace
import JsonPath.Proofs.Json.Locations
import JsonPath.Proofs.Json.Precision
import JsonPath.Proofs.Json.Reading
import JsonPath.Proofs.Json.Same
import JsonPath.Proofs.Location.Normalized
import JsonPath.Proofs.Location.Order
import JsonPath.Proofs.Location.Removal
import JsonPath.Proofs.Location.Replacement
import JsonPath.Proofs.Number.Coherence
import JsonPath.Proofs.Number.Decimal
import JsonPath.Proofs.Number.Nearest
import JsonPath.Proofs.Number.Rounding
import JsonPath.Proofs.Pattern.Points
import JsonPath.Proofs.Schema.Acceptance
import JsonPath.Proofs.Schema.Asked
import JsonPath.Proofs.Schema.Coverage
import JsonPath.Proofs.Schema.Exactness
import JsonPath.Proofs.Schema.History
import JsonPath.Proofs.Schema.Judgement
import JsonPath.Proofs.Schema.Keywords
import JsonPath.Proofs.Schema.Matching
import JsonPath.Proofs.Schema.Parts
import JsonPath.Proofs.Schema.Patterns
import JsonPath.Proofs.Schema.Plan
import JsonPath.Proofs.Syntax.Acceptance
import JsonPath.Proofs.Syntax.Alternatives
import JsonPath.Proofs.Syntax.Canonical
import JsonPath.Proofs.Syntax.Completeness
import JsonPath.Proofs.Syntax.Contents
import JsonPath.Proofs.Syntax.Elements
import JsonPath.Proofs.Syntax.Entries
import JsonPath.Proofs.Syntax.Escapes
import JsonPath.Proofs.Syntax.Extents
import JsonPath.Proofs.Syntax.Grammar
import JsonPath.Proofs.Syntax.Index
import JsonPath.Proofs.Syntax.Literals
import JsonPath.Proofs.Syntax.Lossless
import JsonPath.Proofs.Syntax.Marks
import JsonPath.Proofs.Syntax.Numbering
import JsonPath.Proofs.Syntax.Numbers
import JsonPath.Proofs.Syntax.Numerals
import JsonPath.Proofs.Syntax.Positions
import JsonPath.Proofs.Syntax.Printable
import JsonPath.Proofs.Syntax.Printed
import JsonPath.Proofs.Syntax.Productions
import JsonPath.Proofs.Syntax.Progress
import JsonPath.Proofs.Syntax.Reading
import JsonPath.Proofs.Syntax.Regular
import JsonPath.Proofs.Syntax.Rereading
import JsonPath.Proofs.Syntax.RoundTrip
import JsonPath.Proofs.Syntax.Run
import JsonPath.Proofs.Syntax.Skipped
import JsonPath.Proofs.Syntax.Soundness
import JsonPath.Proofs.Syntax.Strings
import JsonPath.Proofs.Syntax.Totality
import JsonPath.Proofs.Syntax.Tracking
import JsonPath.Proofs.Syntax.WellFormed
import JsonPath.Proofs.Syntax.Written
import JsonPath.Proofs.Text.Percent
import JsonPath.Proofs.Text.Utf8
import JsonPath.Proofs.TypeDefinition.Acceptance
import JsonPath.Proofs.TypeDefinition.Exactness
import JsonPath.Proofs.TypeDefinition.Forms
import JsonPath.Proofs.TypeDefinition.Objects
import JsonPath.Proofs.TypeDefinition.Tagged
import JsonPath.Proofs.TypeDefinition.Timestamp
import JsonPath.Proofs.Typing.Algebraic
import JsonPath.Proofs.Typing.Combination
import JsonPath.Proofs.Typing.Computed
import JsonPath.Proofs.Typing.Demand
import JsonPath.Proofs.Typing.Elements
import JsonPath.Proofs.Typing.Existence
import JsonPath.Proofs.Typing.Heedless
import JsonPath.Proofs.Typing.Literal
import JsonPath.Proofs.Typing.Monotone
import JsonPath.Proofs.Typing.Narrower
import JsonPath.Proofs.Typing.Narrowing
import JsonPath.Proofs.Typing.Ordering
import JsonPath.Proofs.Typing.Over
import JsonPath.Proofs.Typing.Soundness
import JsonPath.Schema.Conversion
import JsonPath.Schema.JsonSchema
import JsonPath.Schema.TypeDefinition
import JsonPath.Syntax.Basic
import JsonPath.Syntax.Cursor
import JsonPath.Syntax.Escape
import JsonPath.Syntax.Extent
import JsonPath.Syntax.Fault
import JsonPath.Syntax.Index
import JsonPath.Syntax.Parser
import JsonPath.Syntax.Position
import JsonPath.Syntax.Printer
import JsonPath.Syntax.Scan
import JsonPath.Syntax.StringLiteral
import JsonPath.Syntax.Token
import JsonPath.Syntax.Tree
import JsonPath.Text
import JsonPath.Text.Percent
import JsonPath.Typing
import JsonPath.Typing.Demand
import JsonPath.Typing.Elements
import JsonPath.Unicode.Category
import JsonPath.Unicode.Composition
import JsonPath.Unicode.Direction
import JsonPath.Unicode.Tables
import JsonPath.Url
import JsonPath.Url.Domain
import JsonPath.Url.DomainTables
import JsonPath.Url.Host
import JsonPath.Url.Path
import JsonPath.Url.Punycode
import JsonPath.Url.Reader
