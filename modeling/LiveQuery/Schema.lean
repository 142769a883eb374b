import LiveQuery.Inspect.Basic
import LiveQuery.Statement.Token
import LiveQuery.Sorted.Set

/-!
# Schemas

A schema is the name of a table and the set of its columns.  The order in which columns are
declared does not matter, and a table never changes its schema.

## Main definitions

* `ColumnDef`: a column with its type, nullability and key mark.
* `Schema`: a table's name and columns.
* `Schema.ofColumns`: the checked construction, with `SchemaError` for what it refuses.
* `Schema.createText`: the statement that creates the table.
-/

namespace LiveQuery

open Std

/-! ### Columns -/

/-- A column of a table. -/
structure ColumnDef where
  /-- The name. -/
  name : String
  /-- The type of the values. -/
  dataType : DataType
  /-- Whether null is allowed. -/
  nullable : Bool := false
  /-- Whether the column is the primary key. -/
  primaryKey : Bool := false
deriving DecidableEq, Repr

namespace ColumnDef

/-- Columns are ordered by name, then by type, nullability and key mark. -/
instance : Ord ColumnDef :=
  ⟨compareLex (compareOn name) (compareLex (compareOn dataType)
    (compareLex (compareOn nullable) (compareOn primaryKey)))⟩

instance : TransOrd ColumnDef :=
  inferInstanceAs (TransCmp (compareLex (compareOn name) (compareLex (compareOn dataType)
    (compareLex (compareOn nullable) (compareOn primaryKey)))))

instance : LawfulEqOrd ColumnDef where
  compare_self := ReflCmp.compare_self
  eq_of_compare {a b} h := by
    have h' := compareLex_eq_eq.1 h
    rw [compareLex_eq_eq, compareLex_eq_eq] at h'
    obtain ⟨n, t, u, k⟩ := a
    obtain ⟨n', t', u', k'⟩ := b
    simpa [compareOn] using h'

/-- The column with nullability set. -/
def withNullable (c : ColumnDef) (nullable : Bool) : ColumnDef := { c with nullable }

/-- The column as primary key, which takes its nullability away. -/
def asPrimaryKey (c : ColumnDef) : ColumnDef := { c with primaryKey := true, nullable := false }

/-- The definition of the column in the statement that creates its table. -/
def definition (c : ColumnDef) : String :=
  String.ofList (quoteName c.name) ++ " " ++ c.dataType.sqlName ++
    (if c.nullable then "" else " NOT NULL") ++ (if c.primaryKey then " PRIMARY KEY" else "")

end ColumnDef

/-! ### Schemas -/

/-- Why columns do not form a schema. -/
inductive SchemaError where
  | emptyTableName
  | duplicateColumn (table column : String)
  | multiplePrimaryKeys (table : String)
  | nullablePrimaryKey (table column : String)
deriving DecidableEq, Repr

/-- The message of an error. -/
def SchemaError.message : SchemaError → String
  | emptyTableName => "Table name cannot be empty"
  | duplicateColumn table column => s!"Column already exists: {table}.{column}"
  | multiplePrimaryKeys table => s!"Table {table} can only have one primary key"
  | nullablePrimaryKey table column => s!"Primary key {table}.{column} cannot be nullable"

/-- A table with its columns. -/
structure Schema where
  /-- The table's name. -/
  table : String
  /-- The columns. -/
  columns : SortedSet ColumnDef
deriving DecidableEq

namespace Schema

/-- Checks one further column against those before it: its name is new, a key is not nullable,
and there is no second key. -/
def checkColumn (table : String) (before : List ColumnDef) (c : ColumnDef) :
    Except SchemaError Unit :=
  if before.any (·.name == c.name) then .error (.duplicateColumn table c.name)
  else if c.primaryKey && c.nullable then .error (.nullablePrimaryKey table c.name)
  else if c.primaryKey && before.any (·.primaryKey) then .error (.multiplePrimaryKeys table)
  else .ok ()

/-- Checks columns in turn, each against those before it. -/
def checkColumns (table : String) (before : List ColumnDef) :
    List ColumnDef → Except SchemaError Unit
  | [] => .ok ()
  | c :: rest =>
    match checkColumn table before c with
    | .ok () => checkColumns table (before ++ [c]) rest
    | .error e => .error e

/-- The schema with given columns.  The table has a name, column names differ, and at most one
column is the primary key, which is not nullable. -/
def ofColumns (table : String) (columns : List ColumnDef) : Except SchemaError Schema :=
  if table.isEmpty then .error .emptyTableName
  else
    match checkColumns table [] columns with
    | .ok () => .ok ⟨table, .ofList columns⟩
    | .error e => .error e

/-- The column of a name. -/
def column? (s : Schema) (name : String) : Option ColumnDef := s.columns.find? (·.name == name)

/-- The primary key. -/
def primaryKey? (s : Schema) : Option ColumnDef := s.columns.find? (·.primaryKey)

/-- The columns as they are declared: the primary key first, then the others by name. -/
def declared (s : Schema) : List ColumnDef :=
  s.columns.toList.filter (·.primaryKey) ++ s.columns.toList.filter (!·.primaryKey)

/-- The statement that creates the table. -/
def createText (s : Schema) : String :=
  "CREATE TABLE " ++ String.ofList (quoteName s.table) ++ " (" ++
    ", ".intercalate (s.declared.map ColumnDef.definition) ++ ")"

end Schema

/-- Whether a table found in a database can be used for a declared schema: the two are the
same. -/
def Schema.isCompatible (found declared : Schema) : Bool := decide (found = declared)

/-! ### Descriptions -/

instance : Inspect ColumnDef where
  inspect c := Inspect.record "ColumnDef" [("name", inspect c.name),
    ("data_type", inspect c.dataType), ("nullable", inspect c.nullable),
    ("primary_key", inspect c.primaryKey)]

instance : Inspect Schema where
  inspect s := Inspect.record "Schema" [("table", inspect s.table), ("columns", inspect s.columns)]

instance : Inspect SchemaError where
  inspect
    | .emptyTableName => "EmptyTableName"
    | .duplicateColumn table column =>
      Inspect.record "DuplicateColumn" [("table", inspect table), ("column", inspect column)]
    | .multiplePrimaryKeys table => Inspect.call "MultiplePrimaryKeys" [inspect table]
    | .nullablePrimaryKey table column =>
      Inspect.record "NullablePrimaryKey" [("table", inspect table), ("column", inspect column)]

end LiveQuery
