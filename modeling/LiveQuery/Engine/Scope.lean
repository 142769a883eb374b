import LiveQuery.Engine.Database
import LiveQuery.Engine.Operators
import LiveQuery.Expr.Basic

/-!
# Names in scope

A column is looked up in the FROM clauses around it, the innermost first.  A clause has it if one of
its tables goes by the qualifier and has a column of that name; a clause without it is passed over,
even if one of its tables goes by the qualifier.  The row number of a table can be read as a column
under three names that are not taken by a declared column.

## Main definitions

* `Source`: a table of a clause, under the name that qualifies its columns.
* `Scope`: the clauses around a place, with whatever belongs to each table.
* `Scope.find?`: looking up a column.
* `Scope.operand`: its content, if the tables come with their current rows.
-/

namespace LiveQuery

/-- A table of a FROM clause, with something that belongs to it. -/
structure Source (ρ : Type) where
  /-- The name that qualifies its columns. -/
  name : String
  /-- The table. -/
  table : Table
  /-- What belongs to the table, such as its current row. -/
  content : ρ

/-- The clauses around a place, innermost first. -/
abbrev Scope (ρ : Type) : Type := List (List (Source ρ))

/-- What a column name means in a table. -/
inductive Cell where
  /-- The cell in a declared column. -/
  | column (c : ColumnInfo)
  /-- The number of the row. -/
  | rowNumber
deriving DecidableEq, Repr

/-- The result of looking up a column. -/
inductive Lookup (ρ : Type) where
  /-- It is a cell of a table in the clause with a number, the innermost one being the zeroth. -/
  | found (level : Nat) (source : Source ρ) (cell : Cell)
  | ambiguous
  | missing

/-- The names for the row number. -/
def rowNumberNames : List String := ["_rowid_", "rowid", "oid"]

/-- Whether a name stands for the row number, unless a column is declared with it. -/
def isRowNumberName (name : String) : Bool := rowNumberNames.any (Caseless.same name)

namespace Scope

variable {ρ : Type}

/-- Looks up a column in one clause, which has a number. -/
def findIn (level : Nat) (clause : List (Source ρ)) (qualifier name : String) : Lookup ρ :=
  let named := clause.filter fun s => Catalog.key s.name == Catalog.key qualifier
  match named.filterMap fun s => (s.table.column? name).map fun c => (s, c) with
  | [(s, c)] => .found level s (.column c)
  | _ :: _ :: _ => .ambiguous
  | [] =>
    if isRowNumberName name then
      match named with
      | [s] => .found level s .rowNumber
      | [] => .missing
      | _ => .ambiguous
    else .missing

/-- Looks up a column in the clauses around a place, with `level` clauses inside them. -/
def findFrom (qualifier name : String) : Nat → Scope ρ → Lookup ρ
  | _, [] => .missing
  | level, clause :: outer =>
    match findIn level clause qualifier name with
    | .missing => findFrom qualifier name (level + 1) outer
    | result => result

/-- Looks up a column in the clauses around a place. -/
def find (qualifier name : String) (scope : Scope ρ) : Lookup ρ := scope.findFrom qualifier name 0

/-- The number of the clause that has a column. -/
def level? (scope : Scope ρ) (qualifier name : String) : Option Nat :=
  match scope.find qualifier name with
  | .found level _ _ => some level
  | _ => none

/-- The tables in scope without their contents. -/
def shape (scope : Scope ρ) : Scope Unit :=
  scope.map fun clause => clause.map fun s => ⟨s.name, s.table, ()⟩

end Scope

/-- A table of a database under a name, to be looked into. -/
def Database.source (db : Database) (name table : String) : List (Source Unit) :=
  (db.table? table).toList.map fun t => ⟨name, t, ()⟩

/-! ### Contents -/

/-- The content of a cell in a row, which may be missing. -/
def Cell.operand (row? : Option NumberedRow) : Cell → Operand
  | column c => ⟨(row?.map fun row => row.2.cell c.name).getD .null, some c.type⟩
  | rowNumber => ⟨(row?.map fun row => .integer (.ofInt row.1)).getD .null, some .integer⟩

/-- The content of a column, and null if it is not found. -/
def Scope.operand (scope : Scope (Option NumberedRow)) (qualifier name : String) : Operand :=
  match scope.find qualifier name with
  | .found _ source cell => cell.operand source.content
  | _ => .computed .null

end LiveQuery
