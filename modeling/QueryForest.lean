import QueryForest.Calendar.Date
import QueryForest.Calendar.Parser
import QueryForest.Calendar.Printer
import QueryForest.Calendar.Time
import QueryForest.Connection.Basic
import QueryForest.Connection.Script
import QueryForest.Data.Assoc
import QueryForest.Data.NameMap
import QueryForest.Entity.Basic
import QueryForest.Entity.Fetch
import QueryForest.Error
import QueryForest.Fields
import QueryForest.Forest.Assemble
import QueryForest.Forest.Export
import QueryForest.Forest.Layout
import QueryForest.Forest.Record
import QueryForest.Join.Basic
import QueryForest.Json.Basic
import QueryForest.Json.Numeral
import QueryForest.Json.Parser
import QueryForest.Json.Token
import QueryForest.Model.Basic
import QueryForest.Model.Description
import QueryForest.Model.Schema
import QueryForest.Numeric.Arithmetic
import QueryForest.Numeric.Binary
import QueryForest.Numeric.Compensated
import QueryForest.Numeric.Shortest
import QueryForest.Predicate
import QueryForest.Row
import QueryForest.Sql.Fragment
import QueryForest.Sql.Identifier
import QueryForest.Sql.Placeholder
import QueryForest.Statement.Delete
import QueryForest.Statement.Execute
import QueryForest.Statement.Insert
import QueryForest.Statement.Select
import QueryForest.Statement.Update
import QueryForest.Store.Address
import QueryForest.Store.LeadingNumber
import QueryForest.Store.Options
import QueryForest.Store.RealText
import QueryForest.Store.Session
import QueryForest.Store.Value
import QueryForest.Text.Base64
import QueryForest.Text.Blank
import QueryForest.Text.Digits
import QueryForest.Text.Hidden
import QueryForest.Text.Quoted
import QueryForest.Value.Bind
import QueryForest.Value.Conversion
import QueryForest.Value.Description
import QueryForest.Value.Scalar
import QueryForest.Proofs.Calendar.Date
import QueryForest.Proofs.Calendar.ReadBack
import QueryForest.Proofs.Calendar.Time
import QueryForest.Proofs.Data.Arrival
import QueryForest.Proofs.Data.Entries
import QueryForest.Proofs.Data.NameMap
import QueryForest.Proofs.Data.Repeats
import QueryForest.Proofs.Data.Runs
import QueryForest.Proofs.Data.Step
import QueryForest.Proofs.Data.Writes
import QueryForest.Proofs.Fields
import QueryForest.Proofs.Forest.Assembly
import QueryForest.Proofs.Forest.Attach
import QueryForest.Proofs.Forest.Building
import QueryForest.Proofs.Forest.Export
import QueryForest.Proofs.Forest.Flattening
import QueryForest.Proofs.Forest.Group
import QueryForest.Proofs.Forest.Grouping
import QueryForest.Proofs.Forest.Needs
import QueryForest.Proofs.Forest.Numbering
import QueryForest.Proofs.Forest.Occurrence
import QueryForest.Proofs.Forest.Order
import QueryForest.Proofs.Forest.Passing
import QueryForest.Proofs.Forest.Positions
import QueryForest.Proofs.Forest.Presence
import QueryForest.Proofs.Forest.Provenance
import QueryForest.Proofs.Forest.Record
import QueryForest.Proofs.Forest.Repetition
import QueryForest.Proofs.Forest.RoundTrip
import QueryForest.Proofs.Forest.SelectList
import QueryForest.Proofs.Forest.Unjoined
import QueryForest.Proofs.Forest.WellFormed
import QueryForest.Proofs.Join.Plan
import QueryForest.Proofs.Numeric.Widening
import QueryForest.Proofs.Predicate
import QueryForest.Proofs.Predicate.Meaning
import QueryForest.Proofs.Predicate.Operators
import QueryForest.Proofs.Predicate.Strays
import QueryForest.Proofs.Row
import QueryForest.Proofs.Row.Fetching
import QueryForest.Proofs.Sql.Filling
import QueryForest.Proofs.Sql.Formula
import QueryForest.Proofs.Sql.Hiding
import QueryForest.Proofs.Sql.Identifier
import QueryForest.Proofs.Sql.Lexeme
import QueryForest.Proofs.Sql.Marks
import QueryForest.Proofs.Sql.Slots
import QueryForest.Proofs.Sql.Table
import QueryForest.Proofs.Statement.Affected
import QueryForest.Proofs.Statement.Assignments
import QueryForest.Proofs.Statement.Calls
import QueryForest.Proofs.Statement.Conditions
import QueryForest.Proofs.Statement.Insertion
import QueryForest.Proofs.Statement.Paging
import QueryForest.Proofs.Statement.Placeholders
import QueryForest.Proofs.Statement.Refusal
import QueryForest.Proofs.Store.Keys
import QueryForest.Proofs.Store.ReadBack
import QueryForest.Proofs.Text.Base64
import QueryForest.Proofs.Text.Digits
import QueryForest.Proofs.Value.Same
