import LiveQuery.Engine.Check
import LiveQuery.Engine.Eval

/-!
# Executing actions

An action changes the rows of one table.  It is refused as a whole if a row would break a
constraint, and a refused action changes nothing.

An update takes the rows on which its predicate holds before anything changes, and changes them
one after the other in the order of their numbers, each from its own old cells.

## Main definitions

* `Effect`: what an action did.
* `Table.conflict?`: what speaks against a row.
* `Database.insertRow`, `Database.updateRows`, `Database.deleteRows`: the three kinds of action.
* `Database.execute`: any action.
-/

namespace LiveQuery

/-- What an action did. -/
inductive Effect where
  /-- It inserted a row with this number. -/
  | inserted (rowid : Int)
  /-- It updated or removed so many rows. -/
  | changed (count : Nat)
deriving DecidableEq, Repr

/-! ### Constraints -/

namespace Table

/-- Whether assigning to a name assigns the row number: it is the name of the column that holds it,
or one of the names for it that no column is declared with. -/
def isRowNumber (t : Table) (name : String) : Bool :=
  match t.column? name with
  | some c => t.rowidColumn? == some c.name
  | none => isRowNumberName name

/-- The cells with the row number in its column, if there is one. -/
def withRowid (t : Table) (rowid : Int) (cells : Cells) : Cells :=
  match t.rowidColumn? with
  | none => cells
  | some c => cells.insert c (.integer (.ofInt rowid))

/-- Whether two rows have the same key, all of it known. -/
def sameKey (t : Table) (a b : Cells) : Bool :=
  t.keyColumns.all fun c =>
    !(a.cell c).isNull && !(b.cell c).isNull && (a.cell c).compare (b.cell c) == .eq

/-- What speaks against a row with a number and cells, next to some other rows: a null where none
may be, a row with the same number, or one with the same key. -/
def conflict? (t : Table) (others : SortedMap Int Cells) (rowid : Int) (cells : Cells) :
    Option EngineError :=
  match t.columns.find? fun c => !c.nullable && (cells.cell c.name).isNull with
  | some c => some (.notNullFailed t.name c.name)
  | none =>
    if others.contains rowid then
      some (.uniqueFailed t.name [t.rowidColumn?.getD "rowid"])
    else if !t.keyColumns.isEmpty && others.values.any fun other => t.sameKey cells other then
      some (.uniqueFailed t.name t.keyColumns)
    else none

end Table

/-! ### Assignments -/

/-- The data that an action assigns, by the names to which it assigns them. -/
def Action.assigned (db : Database) (moment : Binary64) (frames : List Frame) (a : Action) :
    List (String × Datum) :=
  match a with
  | insert _ values => values.keys.zip (Site.data db moment frames a.valueSites)
  | update _ values _ => values.keys.zip (Site.data db moment frames a.valueSites)
  | delete .. => []

namespace Table

/-- The first of some data for every column other than the one that holds the row number, in the
form in which the columns hold them. -/
def assignedCells (t : Table) (data : List (String × Datum)) : List (String × Datum) :=
  t.columns.filterMap fun c =>
    if t.isRowNumber c.name then none
    else (data.find? fun d => Caseless.same d.1 c.name).map fun d => (c.name, d.2.stored c.type)

/-- The last one of some data that is for the row number. -/
def assignedNumber? (t : Table) (data : List (String × Datum)) : Option Datum :=
  ((data.filter fun d => t.isRowNumber d.1).getLast?).map (·.2)

end Table

/-- The row number that a datum stands for. -/
def Datum.rowNumber (d : Datum) : Except EngineError Int :=
  match d.stored .integer with
  | .integer i => .ok i.toInt
  | _ => .error .typeMismatch

namespace Database

/-! ### Insertion -/

/-- The number of a row to be inserted: the one that is assigned, or else the next one. -/
def insertedNumber (t : Table) (assigned? : Option Datum) : Except EngineError Int :=
  match assigned? with
  | none => .ok t.nextRowid
  | some d => if d.isNull then .ok t.nextRowid else d.rowNumber

/-- Inserts a row into a table.  If names that differ in case assign the same column, the first one
counts. -/
def insertRow (db : Database) (moment : Binary64) (t : Table) (a : Action) :
    Except EngineError (Database × Effect) :=
  let data := a.assigned db moment []
  match insertedNumber t (t.assignedNumber? data) with
  | .error e => .error e
  | .ok rowid =>
    let blank : Cells := .ofList (t.columns.map fun c => (c.name, .null))
    let cells := t.withRowid rowid (blank.insertMany (t.assignedCells data))
    match t.conflict? t.rows rowid cells with
    | some e => .error e
    | none => .ok (db.withTable { t with rows := t.rows.insert rowid cells }, .inserted rowid)

/-! ### Update and deletion -/

/-- The rows of a table that an action concerns, with their numbers. -/
def matching (db : Database) (moment : Binary64) (t : Table) (a : Action) : List NumberedRow :=
  let sites := a.predicateSites
  t.rows.toList.filter fun row =>
    Site.allHold db moment [.single [⟨t.name, t, some row⟩]] sites

/-- Updates one row of a table.  If names that differ in case assign the same column, the last one
counts. -/
def updateRow (moment : Binary64) (a : Action) (db : Database) (row : NumberedRow) :
    Except EngineError Database :=
  match db.table? a.table with
  | none => .error (.noSuchTable a.table)
  | some t =>
    let data := a.assigned db moment [.single [⟨t.name, t, some row⟩]]
    match ((t.assignedNumber? data).map Datum.rowNumber).getD (.ok row.1) with
    | .error e => .error e
    | .ok rowid =>
      let cells := t.withRowid rowid (row.2.insertMany (t.assignedCells data.reverse))
      let others := t.rows.erase row.1
      match t.conflict? others rowid cells with
      | some e => .error e
      | none => .ok (db.withTable { t with rows := others.insert rowid cells })

/-- Updates the rows of a table that an action concerns. -/
def updateRows (db : Database) (moment : Binary64) (t : Table) (a : Action) :
    Except EngineError (Database × Effect) :=
  let rows := db.matching moment t a
  (rows.foldlM (updateRow moment a) db).map fun db => (db, .changed rows.length)

/-- Removes the rows of a table that an action concerns. -/
def deleteRows (db : Database) (moment : Binary64) (t : Table) (a : Action) : Database × Effect :=
  let rows := db.matching moment t a
  let kept := rows.foldl (fun kept row => kept.erase row.1) t.rows
  (db.withTable { t with rows := kept }, .changed rows.length)

/-! ### Actions -/

/-- Executes an action at a moment. -/
def execute (db : Database) (moment : Binary64) (a : Action) :
    Except EngineError (Database × Effect) :=
  match a.fault? db, db.table? a.table with
  | some e, _ => .error e
  | none, none => .error (.noSuchTable a.table)
  | none, some t =>
    match a with
    | .insert .. => db.insertRow moment t a
    | .update .. => db.updateRows moment t a
    | .delete .. => .ok (db.deleteRows moment t a)

end Database

end LiveQuery
