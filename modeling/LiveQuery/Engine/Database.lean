import LiveQuery.Engine.Datum
import LiveQuery.Engine.Error
import LiveQuery.Engine.TableInfo
import LiveQuery.Sorted.Map
import LiveQuery.Sorted.Set

/-!
# Databases

A database holds tables by name, and a table holds rows by row number.  Names of tables and columns
are looked up without regard to case.  A table with a single key column declared `INTEGER` uses
that column as the row number.

## Main definitions

* `Cells`, `Table`, `Database`: the contents.
* `Table.nextRowid`, `Table.rowidColumn?`, `Table.keyColumns`: row numbers and keys.
* `Catalog`: the tables that list the tables.
* `Database.createTable`, `Database.info?`: creating and describing tables.
-/

namespace LiveQuery

/-- The cells of a row, by column name as declared. -/
abbrev Cells : Type := SortedMap String Datum

/-- The content of a column in a row; a column without a cell is null. -/
def Cells.cell (cells : Cells) (column : String) : Datum := (cells.get? column).getD .null

/-- A row with its number. -/
abbrev NumberedRow : Type := Int × Cells

/-- A table. -/
structure Table where
  /-- The name with which it was created. -/
  name : String
  /-- The declared columns. -/
  columns : List ColumnInfo
  /-- The rows, by row number. -/
  rows : SortedMap Int Cells
  /-- The statement that created it. -/
  statement : String
  /-- The number of the page on which its rows begin. -/
  page : Nat
deriving DecidableEq

/-- A database: tables by name, the case of which is folded. -/
structure Database where
  /-- The tables. -/
  tables : SortedMap String Table
  /-- Every table is kept under its own name. -/
  keyed : ∀ e ∈ tables.toList, Caseless.fold e.2.name = e.1
deriving DecidableEq

/-! ### Tables -/

namespace Table

/-- The column of a name. -/
def column? (t : Table) (name : String) : Option ColumnInfo :=
  t.columns.find? fun c => Caseless.same c.name name

/-- The key columns, in the order of the key. -/
def key (t : Table) : List ColumnInfo :=
  (t.columns.filter fun c => decide (0 < c.keyPosition)).mergeSort fun c d =>
    decide (c.keyPosition ≤ d.keyPosition)

/-- The names of the key columns, in the order of the key. -/
def keyColumns (t : Table) : List String := t.key.map (·.name)

/-- The column that holds the row number: the only key column, if it is declared `INTEGER`. -/
def rowidColumn? (t : Table) : Option String :=
  match t.key with
  | [c] => if c.declaredType == "INTEGER" then some c.name else none
  | _ => none

/-- Whether the table has an index on its key. -/
def hasIndex (t : Table) : Bool := !t.key.isEmpty && t.rowidColumn?.isNone

/-- How many pages are set up with the table: one for its rows and one for its index. -/
def pageCount (t : Table) : Nat := if t.hasIndex then 2 else 1

/-- The number of the next row: one more than the greatest, and one for the first row.  So the
engine numbers rows up to 9223372036854775807, the greatest number that it has.  After a row of that
number it tries free numbers at random or says that there is no room, which is not said here. -/
def nextRowid (t : Table) : Int :=
  match t.rows.keys.getLast? with
  | some greatest => greatest + 1
  | none => 1

end Table

/-! ### Catalogs -/

namespace Catalog

/-- The names of the table that lists the tables. -/
def mainNames : List String := ["sqlite_master", "sqlite_schema"]

/-- The names of the table that lists the temporary tables, of which there are none. -/
def temporaryNames : List String := ["sqlite_temp_master", "sqlite_temp_schema"]

/-- The form of a table name by which tables are found and columns qualified. -/
def key (name : String) : String :=
  let name := Caseless.fold name
  if mainNames.contains name then "sqlite_master"
  else if temporaryNames.contains name then "sqlite_temp_master"
  else name

/-- The key of a table that is not one of the engine's own is its name without case. -/
theorem key_eq_fold {n : String} (hmain : key n ≠ "sqlite_master")
    (htemporary : key n ≠ "sqlite_temp_master") : key n = Caseless.fold n := by
  simp only [key] at hmain htemporary ⊢
  split at hmain
  next => exact absurd rfl hmain
  next hm =>
    rw [if_neg hm] at htemporary ⊢
    split at htemporary
    next => exact absurd rfl htemporary
    next ht => rw [if_neg ht]

/-- A column of a catalog. -/
def column (name type : String) : ColumnInfo := ⟨name, type, true, 0⟩

/-- The columns of a catalog. -/
def columns : List ColumnInfo :=
  [column "type" "TEXT", column "name" "TEXT", column "tbl_name" "TEXT", column "rootpage" "INT",
    column "sql" "TEXT"]

/-- A row of a catalog. -/
def row (type name table : String) (page : Nat) (statement? : Option String) : Cells :=
  let text := fun s => Datum.text (Utf8.encode s)
  .ofList [("type", text type), ("name", text name), ("tbl_name", text table),
    ("rootpage", .integer (.ofNat page)), ("sql", (statement?.map text).getD .null)]

/-- The rows for a table: one for the table itself, and one for its index.  Every page holds one of
them, and the first page holds the catalog. -/
def rows (t : Table) : List (Int × Cells) :=
  let table : Int × Cells :=
    ((t.page : Int) - 1, row "table" t.name t.name t.page (some t.statement))
  let index : Int × Cells := (t.page,
    row "index" ("sqlite_autoindex_" ++ t.name ++ "_1") t.name (t.page + 1) none)
  if t.hasIndex then [table, index] else [table]

/-- The table that lists some tables. -/
def table (name : String) (tables : List Table) : Table :=
  ⟨name, columns, .ofList (tables.flatMap rows), "", 1⟩

end Catalog

/-! ### Databases -/

namespace Database

/-- The database without tables. -/
def empty : Database := ⟨.empty, by simp [SortedMap.empty]⟩

/-- The table of a name, which may be a catalog. -/
def table? (db : Database) (name : String) : Option Table :=
  let key := Catalog.key name
  if key = "sqlite_master" then some (Catalog.table key db.tables.values)
  else if key = "sqlite_temp_master" then some (Catalog.table key [])
  else db.tables.get? key

/-- Whether a table is one of the engine's own. -/
def isReadOnly (name : String) : Bool :=
  Catalog.key name = "sqlite_master" || Catalog.key name = "sqlite_temp_master"

theorem isReadOnly_eq_false_iff {n : String} :
    isReadOnly n = false ↔
      Catalog.key n ≠ "sqlite_master" ∧ Catalog.key n ≠ "sqlite_temp_master" := by
  simp [isReadOnly]

/-- The names of the tables as they were created, in their order. -/
def tableNames (db : Database) : List String :=
  (SortedSet.ofList (db.tables.values.map (·.name))).toList

/-- The statement that describes a table. -/
def infoText (name : String) : String :=
  "PRAGMA table_info(" ++ String.ofList (quoteName name) ++ ")"

/-- The description of a table, under the name by which it is asked for. -/
def info? (db : Database) (name : String) : Except EngineError (Option TableInfo) :=
  match EngineError.ofText? (infoText name) with
  | some e => .error e
  | none => .ok ((db.table? name).map fun t => ⟨name, t.columns⟩)

/-- The database with the content of a table changed. -/
def withTable (db : Database) (t : Table) : Database where
  tables := db.tables.insert (Caseless.fold t.name) t
  keyed e he := by
    rcases SortedMap.mem_insert he with rfl | he
    · rfl
    · exact db.keyed e he

/-! ### Creating tables -/

/-- The beginning of the names that the engine keeps for its own tables. -/
def reservedPrefix : List Char := "sqlite_".toList

/-- The first thing that is wrong with some columns of a new table, which has some others before
them. -/
def columnsFault? (table text : String) (before : List String) :
    List String → Option EngineError
  | [] => none
  | name :: rest =>
    if name.toList.any (· == '\x00') then EngineError.ofText? text
    else if Limit.columns ≤ before.length then some (.tooManyColumns table)
    else if before.any (Caseless.same name) then some (.duplicateColumn name)
    else columnsFault? table text (name :: before) rest

/-- What is wrong with a statement that creates a table. -/
def creationFault? (info : TableInfo) (text : String) : Option EngineError :=
  if reservedPrefix.isPrefixOf (Caseless.fold info.table).toList then
    some (.reservedName info.table)
  else if info.columns.isEmpty then
    some (.faulty (.unexpected ")") ⟨text, text.utf8ByteSize - 1⟩)
  else columnsFault? info.table text [] (info.columns.map (·.name))

/-- The first page that no table begins on. -/
def nextPage (db : Database) : Nat :=
  db.tables.values.foldl (fun page t => max page (t.page + t.pageCount)) 2

/-- Adds a table without rows, created by a statement with some text.  Its name is none of the
engine's own, and it has columns, the names of which differ. -/
def createTable (db : Database) (info : TableInfo) (text : String) :
    Except EngineError Database :=
  match creationFault? info text with
  | some e => .error e
  | none =>
    .ok (db.withTable ⟨info.table, info.registered.columns, .empty, text, db.nextPage⟩)

end Database

end LiveQuery
