import LiveQuery.Binary64.Basic
import LiveQuery.Binary64.Decimal
import LiveQuery.Binary64.Extended
import LiveQuery.Document.Basic
import LiveQuery.Document.Interchange
import LiveQuery.Document.Json
import LiveQuery.Engine.Aggregate
import LiveQuery.Engine.Check
import LiveQuery.Engine.Database
import LiveQuery.Engine.Datum
import LiveQuery.Engine.DeclaredType
import LiveQuery.Engine.Error
import LiveQuery.Engine.Eval
import LiveQuery.Engine.Execute
import LiveQuery.Engine.Operators
import LiveQuery.Engine.Reading
import LiveQuery.Engine.Scope
import LiveQuery.Engine.Select
import LiveQuery.Engine.TableInfo
import LiveQuery.Expr.Basic
import LiveQuery.Expr.Columns
import LiveQuery.Field.Basic
import LiveQuery.Field.Timestamp
import LiveQuery.Field.Uuid
import LiveQuery.Inspect.Basic
import LiveQuery.Model.Entity
import LiveQuery.Model.Error
import LiveQuery.Model.KeyPath
import LiveQuery.Model.Request
import LiveQuery.Model.Row
import LiveQuery.Model.Term
import LiveQuery.Model.ValueSet
import LiveQuery.Proofs.Adoption
import LiveQuery.Proofs.Affected
import LiveQuery.Proofs.Aliases
import LiveQuery.Proofs.Assignments
import LiveQuery.Proofs.Capture
import LiveQuery.Proofs.Changes
import LiveQuery.Proofs.ColumnFree
import LiveQuery.Proofs.Comments
import LiveQuery.Proofs.Contents
import LiveQuery.Proofs.Coverage
import LiveQuery.Proofs.Decimals
import LiveQuery.Proofs.Declarations
import LiveQuery.Proofs.Endings
import LiveQuery.Proofs.EntityOrder
import LiveQuery.Proofs.FanOut
import LiveQuery.Proofs.Faults
import LiveQuery.Proofs.FirstFault
import LiveQuery.Proofs.Freshness
import LiveQuery.Proofs.History
import LiveQuery.Proofs.Keys
import LiveQuery.Proofs.Lexemes
import LiveQuery.Proofs.Literals
import LiveQuery.Proofs.Membership
import LiveQuery.Proofs.Moments
import LiveQuery.Proofs.NormalForm
import LiveQuery.Proofs.Opening
import LiveQuery.Proofs.Outline
import LiveQuery.Proofs.Paths
import LiveQuery.Proofs.Placeholders
import LiveQuery.Proofs.Qualifiers
import LiveQuery.Proofs.ReadBack
import LiveQuery.Proofs.Recovery
import LiveQuery.Proofs.ResultRows
import LiveQuery.Proofs.Results
import LiveQuery.Proofs.Rounding
import LiveQuery.Proofs.Rowwise
import LiveQuery.Proofs.Schemas
import LiveQuery.Proofs.Scoping
import LiveQuery.Proofs.Session
import LiveQuery.Proofs.StarQueries
import LiveQuery.Proofs.Steps
import LiveQuery.Proofs.StoredForms
import LiveQuery.Proofs.Subscriptions
import LiveQuery.Proofs.UniqueText
import LiveQuery.Proofs.ValueOrder
import LiveQuery.Proofs.Walks
import LiveQuery.Proofs.Writer
import LiveQuery.Proofs.Writes
import LiveQuery.Schema
import LiveQuery.Sorted.Map
import LiveQuery.Sorted.Set
import LiveQuery.Statement.Action
import LiveQuery.Statement.Query
import LiveQuery.Statement.Render
import LiveQuery.Statement.Token
import LiveQuery.Store.Basic
import LiveQuery.Store.Config
import LiveQuery.Store.Log
import LiveQuery.Store.Observation
import LiveQuery.Text.Caseless
import LiveQuery.Text.Hex
import LiveQuery.Text.Numeral
import LiveQuery.Text.Quoted
import LiveQuery.Text.Utf8
import LiveQuery.Text.Visible
import LiveQuery.Text.Visible.Ranges
import LiveQuery.Value.Basic
import LiveQuery.Value.DataType
import LiveQuery.Value.Hashing
import LiveQuery.Value.Literal
