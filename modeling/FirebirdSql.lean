import FirebirdSql.Action
import FirebirdSql.Calendar
import FirebirdSql.Catalog.Cache
import FirebirdSql.Catalog.Column
import FirebirdSql.Catalog.Constraint
import FirebirdSql.Catalog.ConstraintKind
import FirebirdSql.Catalog.Expression
import FirebirdSql.Catalog.Query
import FirebirdSql.Catalog.Reader
import FirebirdSql.Clause
import FirebirdSql.Conversion
import FirebirdSql.Cursor
import FirebirdSql.Digest
import FirebirdSql.Editor.Alter
import FirebirdSql.Editor.Alteration
import FirebirdSql.Editor.Basic
import FirebirdSql.Editor.Field
import FirebirdSql.Editor.Index
import FirebirdSql.Editor.Key
import FirebirdSql.Editor.Table
import FirebirdSql.Engine
import FirebirdSql.Error
import FirebirdSql.Fragment
import FirebirdSql.Fragment.Splicing
import FirebirdSql.Function
import FirebirdSql.Identifier
import FirebirdSql.Literal
import FirebirdSql.Lookup
import FirebirdSql.Model
import FirebirdSql.Model.ColumnType
import FirebirdSql.Number.Binary64
import FirebirdSql.Number.Decimal
import FirebirdSql.Number.Shortest
import FirebirdSql.Options
import FirebirdSql.Page
import FirebirdSql.Proofs.Along
import FirebirdSql.Proofs.Alteration.ColumnState
import FirebirdSql.Proofs.Alteration.Rows
import FirebirdSql.Proofs.Alteration.Statements
import FirebirdSql.Proofs.Alteration.Trigger
import FirebirdSql.Proofs.Assembly
import FirebirdSql.Proofs.Banner
import FirebirdSql.Proofs.BoundTime
import FirebirdSql.Proofs.Calendar
import FirebirdSql.Proofs.Catalog.Cache
import FirebirdSql.Proofs.Catalog.Checks
import FirebirdSql.Proofs.Catalog.Describing
import FirebirdSql.Proofs.Catalog.Expression
import FirebirdSql.Proofs.Catalog.Grouping
import FirebirdSql.Proofs.Catalog.ListedName
import FirebirdSql.Proofs.Catalog.Listing
import FirebirdSql.Proofs.Catalog.Reading
import FirebirdSql.Proofs.Catalog.Sharing
import FirebirdSql.Proofs.Catalog.TypeCode
import FirebirdSql.Proofs.Check.Altering
import FirebirdSql.Proofs.Check.Guarding
import FirebirdSql.Proofs.Check.Ledger
import FirebirdSql.Proofs.Columns
import FirebirdSql.Proofs.Combining
import FirebirdSql.Proofs.Composed
import FirebirdSql.Proofs.Connection
import FirebirdSql.Proofs.Counters
import FirebirdSql.Proofs.Defaults
import FirebirdSql.Proofs.DelimitedName
import FirebirdSql.Proofs.DerivedName
import FirebirdSql.Proofs.Editor.Counting
import FirebirdSql.Proofs.Editor.Course
import FirebirdSql.Proofs.Editor.Creation
import FirebirdSql.Proofs.Editor.Defaulting
import FirebirdSql.Proofs.Editor.Discipline
import FirebirdSql.Proofs.Editor.Emission
import FirebirdSql.Proofs.Editor.Fallback
import FirebirdSql.Proofs.Editor.Freshness
import FirebirdSql.Proofs.Editor.Incoming
import FirebirdSql.Proofs.Editor.Keeper
import FirebirdSql.Proofs.Editor.Lifecycle
import FirebirdSql.Proofs.Editor.Noting
import FirebirdSql.Proofs.Editor.Operation
import FirebirdSql.Proofs.Editor.Program
import FirebirdSql.Proofs.Editor.Rehearsal
import FirebirdSql.Proofs.Editor.Request
import FirebirdSql.Proofs.Editor.Rows
import FirebirdSql.Proofs.Editor.Sent
import FirebirdSql.Proofs.Editor.Target
import FirebirdSql.Proofs.Editor.Trigger
import FirebirdSql.Proofs.Editor.Unchanged
import FirebirdSql.Proofs.Editor.Waiting
import FirebirdSql.Proofs.Formula.Evaluation
import FirebirdSql.Proofs.Formula.Grouping
import FirebirdSql.Proofs.Formula.Reading
import FirebirdSql.Proofs.Formula.Scalars
import FirebirdSql.Proofs.Index.Agreement
import FirebirdSql.Proofs.Index.Altering
import FirebirdSql.Proofs.Index.Clearing
import FirebirdSql.Proofs.Index.Confusion
import FirebirdSql.Proofs.Index.Creating
import FirebirdSql.Proofs.Index.Editing
import FirebirdSql.Proofs.Index.Effect
import FirebirdSql.Proofs.Index.Found
import FirebirdSql.Proofs.Index.HashKey
import FirebirdSql.Proofs.Index.Reading
import FirebirdSql.Proofs.Index.Removal
import FirebirdSql.Proofs.Index.Returning
import FirebirdSql.Proofs.Index.Store
import FirebirdSql.Proofs.Inert
import FirebirdSql.Proofs.Inlining
import FirebirdSql.Proofs.LiteralReading
import FirebirdSql.Proofs.Log
import FirebirdSql.Proofs.Lookup.Evaluation
import FirebirdSql.Proofs.Lookup.Like
import FirebirdSql.Proofs.LowerCase
import FirebirdSql.Proofs.NameList
import FirebirdSql.Proofs.Noted
import FirebirdSql.Proofs.Paging
import FirebirdSql.Proofs.Period
import FirebirdSql.Proofs.Placeholders
import FirebirdSql.Proofs.PlainName
import FirebirdSql.Proofs.Quotation
import FirebirdSql.Proofs.QuotedName
import FirebirdSql.Proofs.ReadBack
import FirebirdSql.Proofs.Rows
import FirebirdSql.Proofs.Select.Casting
import FirebirdSql.Proofs.Select.Width
import FirebirdSql.Proofs.Select.Words
import FirebirdSql.Proofs.SequenceName
import FirebirdSql.Proofs.Settings
import FirebirdSql.Proofs.Shadow.Disabling
import FirebirdSql.Proofs.Shadow.Enabling
import FirebirdSql.Proofs.Shadow.Ordering
import FirebirdSql.Proofs.Shadow.Reading
import FirebirdSql.Proofs.Shadow.Replaying
import FirebirdSql.Proofs.Shadow.Resting
import FirebirdSql.Proofs.Shadow.Restoring
import FirebirdSql.Proofs.Shadow.Server
import FirebirdSql.Proofs.Shadow.Wording
import FirebirdSql.Proofs.Shifting
import FirebirdSql.Proofs.StoredName
import FirebirdSql.Proofs.Subject
import FirebirdSql.Proofs.Trace
import FirebirdSql.Proofs.Transaction
import FirebirdSql.Proofs.Triple
import FirebirdSql.Proofs.Truncating
import FirebirdSql.Proofs.Unfailing
import FirebirdSql.Proofs.UpperCase
import FirebirdSql.Proofs.Url.Host
import FirebirdSql.Proofs.Url.Parts
import FirebirdSql.Proofs.Url.Spelling
import FirebirdSql.Proofs.Utf8
import FirebirdSql.Row
import FirebirdSql.Scalar
import FirebirdSql.Script
import FirebirdSql.Select
import FirebirdSql.Sequence
import FirebirdSql.Sequence.Current
import FirebirdSql.Session
import FirebirdSql.Shadow.Constraint
import FirebirdSql.Shadow.Live
import FirebirdSql.Shadow.Store
import FirebirdSql.Shadow.Stored
import FirebirdSql.Shadow.Text
import FirebirdSql.Statement
import FirebirdSql.Temporal.DatePart
import FirebirdSql.Temporal.Extract
import FirebirdSql.Temporal.Interval
import FirebirdSql.Temporal.Truncate
import FirebirdSql.Text.Blank
import FirebirdSql.Text.Case
import FirebirdSql.Text.CaseTable
import FirebirdSql.Text.Hex
import FirebirdSql.Text.HiddenTable
import FirebirdSql.Text.Numeral
import FirebirdSql.Text.Percent
import FirebirdSql.Text.Quoted
import FirebirdSql.Text.Search
import FirebirdSql.Text.Utf8
import FirebirdSql.Transaction
import FirebirdSql.Url
import FirebirdSql.Url.Fault
import FirebirdSql.Url.Ipv6
import FirebirdSql.Uuid
import FirebirdSql.Value
