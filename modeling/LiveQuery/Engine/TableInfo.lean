import LiveQuery.Engine.DeclaredType
import LiveQuery.Schema

/-!
# Tables as found in a database

A table in a database is described by its columns as they were declared.  It can be used for an
entity when it has exactly the entity's schema.

## Main definitions

* `ColumnInfo`, `TableInfo`: the description of a table.
* `ColumnInfo.type`: the type whose rules a column follows.
* `TableInfo.toSchema?`: the schema that the table has, if it has one.
* `TableInfo.isCompatibleWith`: whether the table can be used for a schema.
* `TableInfo.registered`: a table as the database keeps it.
* `TableInfo.ofSchema`: the description of a table created for a schema.
-/

namespace LiveQuery

/-- A column as declared in a database. -/
structure ColumnInfo where
  /-- The name. -/
  name : String
  /-- The declared type. -/
  declaredType : String
  /-- Whether null is allowed. -/
  nullable : Bool
  /-- The place in the primary key, counted from one; zero for columns outside the key. -/
  keyPosition : Nat
deriving DecidableEq, Repr

/-- The structure of a table in a database, which may be one that no schema describes. -/
structure TableInfo where
  /-- The table's name. -/
  table : String
  /-- The columns, in the order of their declaration. -/
  columns : List ColumnInfo
deriving DecidableEq, Repr

/-- The column definition that a declared column amounts to, if its type stands for a storage
class. -/
def ColumnInfo.toDef? (c : ColumnInfo) : Option ColumnDef :=
  (DataType.ofDeclared c.declaredType).map fun t =>
    { name := c.name, dataType := t, nullable := c.nullable,
      primaryKey := decide (0 < c.keyPosition) }

namespace ColumnInfo

/-- The type whose rules the column follows: that of its declaration.  Without a declared type the
column takes everything as it is, and any other declaration stands for numbers. -/
def type (c : ColumnInfo) : DataType :=
  (DataType.ofDeclared c.declaredType).getD (if c.declaredType.isEmpty then .blob else .integer)

end ColumnInfo

/-- The declared form of a column definition. -/
def ColumnInfo.ofDef (c : ColumnDef) : ColumnInfo :=
  ⟨c.name, c.dataType.sqlName, c.nullable, if c.primaryKey then 1 else 0⟩

namespace TableInfo

/-- The first column of a name. -/
def column? (t : TableInfo) (name : String) : Option ColumnInfo := t.columns.find? (·.name == name)

/-- The schema of the table.  There is none if a column's type stands for no storage class, or if
the columns do not form a schema. -/
def toSchema? (t : TableInfo) : Option Schema :=
  match t.columns.mapM ColumnInfo.toDef? with
  | none => none
  | some columns =>
    match Schema.ofColumns t.table columns with
    | .ok s => some s
    | .error _ => none

/-- Whether the table can be used for a declared schema. -/
def isCompatibleWith (t : TableInfo) (declared : Schema) : Bool :=
  match t.toSchema? with
  | some found => found.isCompatible declared
  | none => false

/-- The place of a column in the primary key, when every column of the key has a rank: columns of
the same rank keep their order. -/
def keyPlace (t : TableInfo) (index rank : Nat) : Nat :=
  if rank = 0 then 0
  else
    (t.columns.zipIdx.filter fun (c, i) => decide (0 < c.keyPosition) &&
      (decide (c.keyPosition < rank) || (c.keyPosition == rank && decide (i ≤ index)))).length

/-- The table as a database keeps it. -/
def registered (t : TableInfo) : TableInfo :=
  { t with
    columns := t.columns.zipIdx.map fun (c, i) =>
      { c with
        declaredType := DeclaredType.registered c.declaredType
        keyPosition := t.keyPlace i c.keyPosition } }

/-- The table that is created for a schema. -/
def ofSchema (s : Schema) : TableInfo := ⟨s.table, s.declared.map ColumnInfo.ofDef⟩

end TableInfo

instance : Inspect ColumnInfo where
  inspect c := Inspect.record "ColumnInfo" [("name", inspect c.name),
    ("declared_type", inspect c.declaredType), ("nullable", inspect c.nullable),
    ("primary_key", inspect c.keyPosition)]

instance : Inspect TableInfo where
  inspect t := Inspect.record "TableInfo"
    [("table", inspect t.table), ("columns", inspect t.columns)]

end LiveQuery
