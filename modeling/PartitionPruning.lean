import PartitionPruning.Assignment
import PartitionPruning.Calendar.Date
import PartitionPruning.Calendar.Epoch
import PartitionPruning.Calendar.Iso
import PartitionPruning.Calendar.Timestamp
import PartitionPruning.DataType.Basic
import PartitionPruning.DataType.Grammar
import PartitionPruning.DataType.Metadata
import PartitionPruning.Expr.Basic
import PartitionPruning.Fault
import PartitionPruning.Filter.Basic
import PartitionPruning.Filter.Bind
import PartitionPruning.Filter.Evaluate
import PartitionPruning.Filter.Grammar
import PartitionPruning.Filter.Predicate
import PartitionPruning.Filter.Token
import PartitionPruning.Filter.Walk
import PartitionPruning.FrozenMap
import PartitionPruning.Hash.Murmur3
import PartitionPruning.Json.Basic
import PartitionPruning.Json.Display
import PartitionPruning.Json.Key
import PartitionPruning.Json.Lenient
import PartitionPruning.Json.Reader
import PartitionPruning.Json.Tuple
import PartitionPruning.Json.Writer
import PartitionPruning.Literal.Basic
import PartitionPruning.Literal.Class
import PartitionPruning.Literal.Conversion
import PartitionPruning.Literal.Listing
import PartitionPruning.Numeral.Arithmetic
import PartitionPruning.Numeral.Binary64
import PartitionPruning.Numeral.Decimal
import PartitionPruning.Numeral.Integer
import PartitionPruning.Numeral.Limit
import PartitionPruning.Numeral.Multiple
import PartitionPruning.Numeral.Power
import PartitionPruning.Numeral.Quotient
import PartitionPruning.Numeral.Residue
import PartitionPruning.Numeral.Scientific
import PartitionPruning.Numeral.Whole
import PartitionPruning.Partition.Path
import PartitionPruning.Partition.Spec
import PartitionPruning.Planner
import PartitionPruning.Proofs.Calendar.Ordinals
import PartitionPruning.Proofs.Expr.NormalForm
import PartitionPruning.Proofs.Expr.Relation
import PartitionPruning.Proofs.Expr.Substitution
import PartitionPruning.Proofs.Filter.Binding
import PartitionPruning.Proofs.Filter.Congruence
import PartitionPruning.Proofs.Filter.Definedness
import PartitionPruning.Proofs.Filter.Equality
import PartitionPruning.Proofs.Filter.Membership
import PartitionPruning.Proofs.Filter.NormalForm
import PartitionPruning.Proofs.Filter.Nulls
import PartitionPruning.Proofs.Filter.Reading
import PartitionPruning.Proofs.Filter.Safety
import PartitionPruning.Proofs.Filter.Sets
import PartitionPruning.Proofs.Literal.Conversion
import PartitionPruning.Proofs.Literal.Forms
import PartitionPruning.Proofs.Numeral.Binary
import PartitionPruning.Proofs.Numeral.Exact
import PartitionPruning.Proofs.Outcome
import PartitionPruning.Proofs.Partition.Path
import PartitionPruning.Proofs.Partition.Segments
import PartitionPruning.Proofs.Planner.Events
import PartitionPruning.Proofs.Planner.NormalForm
import PartitionPruning.Proofs.Planner.RowFilters
import PartitionPruning.Proofs.Planner.Soundness
import PartitionPruning.Proofs.Residual.Binding
import PartitionPruning.Proofs.Residual.Decision
import PartitionPruning.Proofs.Residual.Idempotence
import PartitionPruning.Proofs.Residual.Positions
import PartitionPruning.Proofs.Residual.Sharpness
import PartitionPruning.Proofs.Residual.Soundness
import PartitionPruning.Proofs.Residual.Totality
import PartitionPruning.Proofs.Schema.Lookup
import PartitionPruning.Proofs.Schema.Rows
import PartitionPruning.Proofs.Schema.Shadowing
import PartitionPruning.Proofs.Schema.Names
import PartitionPruning.Proofs.Schema.Positions
import PartitionPruning.Proofs.Schema.Spellings
import PartitionPruning.Proofs.Schema.Structs
import PartitionPruning.Proofs.Settings.Entries
import PartitionPruning.Proofs.Settings.Merging
import PartitionPruning.Proofs.Settings.Order
import PartitionPruning.Proofs.Text.Forms
import PartitionPruning.Proofs.Transform.Boundaries
import PartitionPruning.Proofs.Transform.Buckets
import PartitionPruning.Proofs.Transform.Definedness
import PartitionPruning.Proofs.Transform.Permission
import PartitionPruning.Proofs.Transform.Projection
import PartitionPruning.Proofs.Transform.Sequences
import PartitionPruning.Proofs.Transform.Shape
import PartitionPruning.Proofs.Transform.Soundness
import PartitionPruning.Proofs.Transform.Time
import PartitionPruning.Proofs.Transform.Truncation
import PartitionPruning.Proofs.Transform.Units
import PartitionPruning.Proofs.Value.Comparison
import PartitionPruning.Proofs.Value.Domain
import PartitionPruning.Record
import PartitionPruning.Residual
import PartitionPruning.Schema.Basic
import PartitionPruning.Schema.Index
import PartitionPruning.Schema.Visit
import PartitionPruning.Settings.Basic
import PartitionPruning.Settings.File
import PartitionPruning.Settings.Merge
import PartitionPruning.Text.Base64
import PartitionPruning.Text.Blank
import PartitionPruning.Text.Brackets
import PartitionPruning.Text.Case
import PartitionPruning.Text.Digit
import PartitionPruning.Text.Folded
import PartitionPruning.Text.Hex
import PartitionPruning.Text.Pattern.Basic
import PartitionPruning.Text.Pattern.CharSet
import PartitionPruning.Text.Pattern.Form
import PartitionPruning.Text.Pattern.Reader
import PartitionPruning.Text.Pattern.Search
import PartitionPruning.Text.Percent
import PartitionPruning.Text.Printable
import PartitionPruning.Text.Quoted
import PartitionPruning.Text.Ranges
import PartitionPruning.Text.Tabs
import PartitionPruning.Text.Template
import PartitionPruning.Text.Word
import PartitionPruning.Transform.Apply
import PartitionPruning.Transform.Basic
import PartitionPruning.Transform.Human
import PartitionPruning.Transform.Project
import PartitionPruning.Uuid
import PartitionPruning.Value.Basic
import PartitionPruning.Value.Count
import PartitionPruning.Value.Document
import PartitionPruning.Value.Elapsed
import PartitionPruning.Value.Order
import PartitionPruning.Value.Text
import PartitionPruning.Proofs.Numeral.Digits
import PartitionPruning.Proofs.Json.RoundTrip
import PartitionPruning.Proofs.DataType.Names
import PartitionPruning.Proofs.DataType.Acceptance
import PartitionPruning.Proofs.Schema.Metadata
import PartitionPruning.Proofs.Transform.Names
import PartitionPruning.Proofs.Transform.Acceptance
import PartitionPruning.Proofs.Partition.Metadata
import PartitionPruning.Proofs.Filter.Words
import PartitionPruning.Proofs.Filter.Scanning
import PartitionPruning.Proofs.Filter.Phrases
import PartitionPruning.Proofs.Filter.Parsing
import PartitionPruning.Proofs.Filter.Quotes
import PartitionPruning.Proofs.Expr.Complement
import PartitionPruning.Proofs.Filter.Complement
import PartitionPruning.Proofs.Numeral.Count
import PartitionPruning.Proofs.Transform.Contract
import PartitionPruning.Proofs.Transform.Beginnings
import PartitionPruning.Proofs.Transform.Multiples
import PartitionPruning.Proofs.Transform.Decimals
import PartitionPruning.Proofs.Text.Bytes
import PartitionPruning.Proofs.Text.Percent
import PartitionPruning.Proofs.Calendar.Dates
import PartitionPruning.Proofs.Calendar.Texts
import PartitionPruning.Proofs.Calendar.Moments
import PartitionPruning.Proofs.Transform.Results
import PartitionPruning.Proofs.Transform.Order
import PartitionPruning.Proofs.Numeral.Rounding
import PartitionPruning.Proofs.Numeral.TwosComplement
import PartitionPruning.Proofs.Literal.Integers
import PartitionPruning.Proofs.Literal.Rebinding
import PartitionPruning.Proofs.Literal.Steps
import PartitionPruning.Proofs.Transform.Human
import PartitionPruning.Proofs.Calendar.Offsets
import PartitionPruning.Proofs.Calendar.Readings
import PartitionPruning.Proofs.Calendar.Acceptance
