import FluentSql.Text.Blank
import FluentSql.Binary.Printer
import FluentSql.Binary.Reader
import FluentSql.Decimal.Reader
import FluentSql.Decimal.Binary
import FluentSql.Calendar.Printer
import FluentSql.Calendar.Reader
import FluentSql.Json.Printer
import FluentSql.Json.Reader
import FluentSql.Uuid
import FluentSql.Failure
import FluentSql.Wire.ColumnType
import FluentSql.Wire.Numeric
import FluentSql.Wire.Encode
import FluentSql.Wire.Decode
import FluentSql.Row.User
import FluentSql.Record
import FluentSql.Builder.Command
import FluentSql.Postgres.Executor
import FluentSql.Postgres.Connection
import FluentSql.Proofs.Statement.Draft
import FluentSql.Proofs.Statement.Matching
import FluentSql.Proofs.Statement.Rendering
import FluentSql.Proofs.Postgres.Fences
import FluentSql.Proofs.Postgres.Scan
import FluentSql.Proofs.Statement.Writings
import FluentSql.Proofs.Postgres.Alignment
import FluentSql.Proofs.Builder.Atomicity
import FluentSql.Proofs.Statement.Formula
import FluentSql.Proofs.Statement.Meaning
import FluentSql.Proofs.Builder.History
import FluentSql.Proofs.Builder.Ownership
import FluentSql.Proofs.Statement.Interleaving
import FluentSql.Proofs.Statement.Redaction
import FluentSql.Proofs.Builder.Redaction
import FluentSql.Proofs.Postgres.Numbering
import FluentSql.Proofs.Postgres.Lexical
import FluentSql.Proofs.Binary.Widening
import FluentSql.Proofs.Calendar.Microseconds
import FluentSql.Proofs.Wire.ReadBack
import FluentSql.Proofs.Row.Travel
import FluentSql.Proofs.Postgres.Completion
import FluentSql.Proofs.Postgres.ResultSet
import FluentSql.Proofs.Postgres.Operations
import FluentSql.Proofs.Postgres.Insertion
import FluentSql.Proofs.Row.Lookup
import FluentSql.Proofs.Text.Numeral
import FluentSql.Proofs.Value.Number
import FluentSql.Proofs.Wire.Integer
import FluentSql.Proofs.Wire.Acceptance
import FluentSql.Proofs.Wire.Precision
import FluentSql.Proofs.Row.Decimal
import FluentSql.Proofs.Calendar.Reading
import FluentSql.Proofs.Wire.Temporal
import FluentSql.Proofs.Postgres.Renumbering
import FluentSql.Proofs.Record.Lookup
import FluentSql.Proofs.Value.Imported
import FluentSql.Proofs.Text.Digits
import FluentSql.Proofs.Calendar.Writing
import FluentSql.Proofs.Decimal.Writing
import FluentSql.Proofs.Wire.Rereading
import FluentSql.Proofs.Json.Literal
import FluentSql.Proofs.Json.NumberReading
import FluentSql.Proofs.Json.Document
import FluentSql.Proofs.Json.Grammar
import FluentSql.Proofs.Binary.Cell
import FluentSql.Proofs.Binary.Shortest
import FluentSql.Proofs.Binary.Product
import FluentSql.Proofs.Json.NumberRendering
import FluentSql.Proofs.Json.Rendering
import FluentSql.Proofs.Json.Reading
import FluentSql.Proofs.Json.Kept
import FluentSql.Proofs.Wire.Document
import FluentSql.Proofs.Record.History
import FluentSql.Proofs.Json.Data
import FluentSql.Proofs.Row.Reinsertion
import FluentSql.Proofs.Row.Structure
import FluentSql.Proofs.Statement.Insertion
import FluentSql.Proofs.Builder.Log
import FluentSql.Proofs.Trace.Shortening
