import SchemaDesk.Text.Upper
import SchemaDesk.Text.Fold
import SchemaDesk.Text.Digit
import SchemaDesk.Text.Alphanumeric
import SchemaDesk.Text.Printable
import SchemaDesk.Text.Blank
import SchemaDesk.Number.Shortest
import SchemaDesk.Number.Numeral
import SchemaDesk.Sql.Comment
import SchemaDesk.Sql.Items
import SchemaDesk.Sql.Token
import SchemaDesk.Value.Display
import SchemaDesk.Json.Reader
import SchemaDesk.Json.Writer
import SchemaDesk.Ident
import SchemaDesk.Value.Number
import SchemaDesk.Schema.Records
import SchemaDesk.Schema.Objects
import SchemaDesk.Sql.Statement
import SchemaDesk.Sql.Clause
import SchemaDesk.Sql.Parsed
import SchemaDesk.Schema.Integrity
import SchemaDesk.Timestamp
import SchemaDesk.Sql.Ddl
import SchemaDesk.History
import SchemaDesk.Editor
import SchemaDesk.Edit.Tables
import SchemaDesk.Edit.Relations
import SchemaDesk.Edit.Annotations
import SchemaDesk.Edit.Merge
import SchemaDesk.Edit.Selection
import SchemaDesk.Store
import SchemaDesk.Designer
import SchemaDesk.Logging
import SchemaDesk.TestReport
import SchemaDesk.Proofs.Session.Flags
import SchemaDesk.Proofs.Session.InStep
import SchemaDesk.Proofs.Session.NewTables
import SchemaDesk.Proofs.Sql.RoundTrip
import SchemaDesk.Proofs.Storage.RoundTrip
import SchemaDesk.Proofs.Sql.Title
import SchemaDesk.Proofs.Session.Applied
import SchemaDesk.Proofs.Session.Hints
import SchemaDesk.Proofs.Session.OwnText
import SchemaDesk.Proofs.Session.Reexport
import SchemaDesk.Proofs.Sql.Order
import SchemaDesk.Proofs.Sql.Exportable
import SchemaDesk.Proofs.Storage.Loaded
import SchemaDesk.Proofs.Storage.Refused
import SchemaDesk.Proofs.Session.Saved
import SchemaDesk.Proofs.Session.Attended
import SchemaDesk.Proofs.Timeline
import SchemaDesk.Proofs.Session.Debounced
import SchemaDesk.Proofs.Session.Names
import SchemaDesk.Proofs.Session.Exported
import SchemaDesk.Proofs.Sql.Relaid
import SchemaDesk.Proofs.Sql.Sequence
import SchemaDesk.Proofs.Sql.NameStyles
import SchemaDesk.Proofs.Sql.Opaque
import SchemaDesk.Proofs.Edit.Cascade
import SchemaDesk.Proofs.Storage.Constraints
import SchemaDesk.Proofs.Edit.Reported
import SchemaDesk.Proofs.Sql.NumericDefault
import SchemaDesk.Proofs.Sql.Stretches
import SchemaDesk.Proofs.Sql.Resplit
import SchemaDesk.Proofs.Sql.Spans
import SchemaDesk.Proofs.Sql.Quoted
import SchemaDesk.Proofs.Storage.Exported
import SchemaDesk.Proofs.Session.Subscriptions
