import LiveQuery.Statement.Token

/-!
# Errors of the engine

The engine refuses a statement for what it says or for what it would do.  If it is for what the
statement says, and a word of it is to blame, the message shows the statement and the place.

## Main definitions

* `Limit`: the limits of the engine.
* `Fault`: what can be wrong with a word of a statement.
* `EngineError`: what the engine refuses.
* `Fault.message`, `EngineError.message`: the messages.
* `EngineError.ofText?`: what is wrong with the text of a statement before it is looked into.
-/

namespace LiveQuery

/-! ### Limits -/

namespace Limit

/-- How many parts of an expression may stand within each other. -/
def depth : Nat := 1000

/-- How many arguments a call may have. -/
def arguments : Nat := 127

/-- How many parameters a statement may have. -/
def parameters : Nat := 32766

/-- How many columns a table, and how many results or sort keys a query may have. -/
def columns : Nat := 2000

/-- How many tables a query may range over. -/
def tables : Nat := 64

/-- How many tables a query may name. -/
def sources : Nat := 200

end Limit

/-! ### Causes -/

/-- What is wrong with a word of a statement. -/
inductive Fault where
  /-- A column is not there, or its table is not in scope. -/
  | noSuchColumn (qualifier name : String)
  /-- Two tables in scope have the column. -/
  | ambiguousColumn (qualifier name : String)
  /-- A function does not take so many arguments. -/
  | wrongArguments (f : Builtin)
  /-- No function takes so many arguments. -/
  | tooManyArguments (f : Builtin)
  /-- An aggregate stands where none may stand. -/
  | misplacedAggregate (f : Builtin)
  /-- An aggregate is over rows that are not aggregated. -/
  | misusedAggregate (f : Builtin)
  /-- No statement has so many parameters. -/
  | tooManyParameters
  /-- The statement cannot go on like this. -/
  | unexpected (word : String)
  /-- The statement ends within a name. -/
  | unfinished (word : String)
deriving DecidableEq, Repr

/-- The message of a fault. -/
def Fault.message : Fault → String
  | noSuchColumn qualifier name => s!"no such column: {qualifier}.{name}"
  | ambiguousColumn qualifier name => s!"ambiguous column name: {qualifier}.{name}"
  | wrongArguments f => s!"wrong number of arguments to function {f.name}()"
  | tooManyArguments f => s!"too many arguments on function {f.name}"
  | misplacedAggregate f => s!"misuse of aggregate function {f.name}()"
  | misusedAggregate f => s!"misuse of aggregate: {f.name}()"
  | tooManyParameters => "too many SQL variables"
  | unexpected word => s!"near \"{word}\": syntax error"
  | unfinished word => s!"unrecognized token: \"{word}\""

/-- Why the engine refuses a statement. -/
inductive EngineError where
  /-- A word is at fault. -/
  | faulty (fault : Fault) (place : TextPlace)
  /-- There is no table of this name. -/
  | noSuchTable (table : String)
  /-- An update assigns a column that its table does not have. -/
  | noSuchTarget (column : String)
  /-- An insertion assigns a column that its table does not have. -/
  | unknownColumn (table column : String)
  /-- Another row has the same key. -/
  | uniqueFailed (table : String) (columns : List String)
  /-- A column that may not be null would be. -/
  | notNullFailed (table column : String)
  /-- A row number would not be an integer. -/
  | typeMismatch
  /-- All columns are asked for, of no table. -/
  | noTables
  /-- A table would have two columns of one name. -/
  | duplicateColumn (column : String)
  /-- A table would have a name that the engine keeps for its own tables. -/
  | reservedName (table : String)
  /-- A table is the engine's own. -/
  | readOnly (table : String)
  /-- An expression has too many parts within each other. -/
  | tooDeep
  /-- A query has too many results. -/
  | tooManyResults
  /-- A query has too many sort keys. -/
  | tooManyKeys
  /-- A query ranges over too many tables. -/
  | tooManyTables
  /-- A query names too many tables. -/
  | tooManySources
  /-- An update has too many assignments. -/
  | tooManyAssignments
  /-- A table would have too many columns. -/
  | tooManyColumns (table : String)
deriving DecidableEq, Repr

/-- The message of an error. -/
def EngineError.message : EngineError → String
  | faulty fault place => s!"{fault.message} in {place.text} at offset {place.offset}"
  | noSuchTable table => s!"no such table: {table}"
  | noSuchTarget column => s!"no such column: {column}"
  | unknownColumn table column => s!"table {table} has no column named {column}"
  | uniqueFailed table columns =>
    "UNIQUE constraint failed: " ++ ", ".intercalate (columns.map fun c => table ++ "." ++ c)
  | notNullFailed table column => s!"NOT NULL constraint failed: {table}.{column}"
  | typeMismatch => "datatype mismatch"
  | noTables => "no tables specified"
  | duplicateColumn column => s!"duplicate column name: {column}"
  | reservedName table => s!"object name reserved for internal use: {table}"
  | readOnly table => s!"table {table} may not be modified"
  | tooDeep => s!"Expression tree is too large (maximum depth {Limit.depth})"
  | tooManyResults => "too many columns in result set"
  | tooManyKeys => "too many terms in ORDER BY clause"
  | tooManyTables => s!"at most {Limit.tables} tables in a join"
  | tooManySources => s!"too many FROM clause terms, max: {Limit.sources}"
  | tooManyAssignments => "too many columns in set list"
  | tooManyColumns table => s!"too many columns on {table}"

/-- What is wrong with the text of a statement: the engine reads it up to the first character of
code zero, which only names can hold. -/
def EngineError.ofText? (text : String) : Option EngineError :=
  (Quoted.cutOff? '"' 0 none text.toList).map fun cut =>
    .faulty (.unfinished (String.ofList cut.2)) ⟨text, cut.1⟩

end LiveQuery
