import LiveQuery.Expr.Basic
import LiveQuery.Sorted.Map
import LiveQuery.Statement.Query

/-!
# Actions

An action changes the rows of one table: it inserts a row, updates some rows, or deletes some.

## Main definitions

* `Assignments`: expressions by column name.
* `Action`: the three kinds of change.
* `Query.isAffectedBy`: whether an action may change the result of a query.
-/

namespace LiveQuery

/-- Expressions to be stored, by column name. -/
abbrev Assignments : Type := SortedMap String Expr

/-- A change to the rows of one table. -/
inductive Action where
  /-- Inserts one row with the given columns. -/
  | insert (table : String) (values : Assignments)
  /-- Assigns columns of the rows on which the predicate holds, or of every row. -/
  | update (table : String) (values : Assignments) (predicate : Option Expr)
  /-- Removes the rows on which the predicate holds, or every row. -/
  | delete (table : String) (predicate : Option Expr)
deriving DecidableEq

namespace Action

/-- The table that the action changes. -/
def table : Action → String
  | insert table _ => table
  | update table _ _ => table
  | delete table _ => table

/-- A word for the kind of change. -/
def kind : Action → String
  | insert .. => "insert"
  | update .. => "update"
  | delete .. => "delete"

/-- A short description: the kind of change and the table. -/
def summary (a : Action) : String := a.kind ++ " " ++ a.table

/-- Whether the action is an update that assigns nothing. -/
def isIdle : Action → Bool
  | update _ values _ => values.isEmpty
  | _ => false

end Action

/-! ### Affected queries -/

/-- Whether an action may change the result of a query.  Rows come and go whole, so an insertion
or deletion concerns every query that reads the table; an update concerns only those that read a
column it assigns. -/
def Query.isAffectedBy (q : Query) (a : Action) : Bool :=
  q.tables.contains a.table &&
    match a with
    | .insert .. => true
    | .delete .. => true
    | .update table values _ => values.keys.any (q.columnsOf table).contains

end LiveQuery
