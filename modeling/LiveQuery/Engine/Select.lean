import LiveQuery.Engine.Check
import LiveQuery.Engine.Eval

/-!
# Running queries

A query ranges over all combinations of rows of its root tables, keeps those on which every
predicate holds, sorts them, and evaluates its results.  A query without results gives all columns
of its root tables.  A query with an aggregate among its results gives a single row.

## Main definitions

* `Database.combinations`: the combinations of rows of some tables.
* `Query.compareKeys`: the comparison of two rows by the sort keys.
* `Query.frames`: the rows that a query gives, with what they are aggregated from.
* `Database.run`: the rows of a query, as values in the order of its results.
* `Database.resultNames`: the names of these values.
-/

namespace LiveQuery

/-- The combinations of one row of each table.  The rows of the first table vary slowest. -/
def Database.combinations (db : Database) : List String → List Combination
  | [] => [[]]
  | t :: ts => (db.rows t t).flatMap fun row => (db.combinations ts).map (row :: ·)

namespace Query

/-! ### Selection and order -/

/-- Compares two rows by their sort keys: the first key on which they differ decides. -/
def compareKeys : List (Datum × Direction) → List (Datum × Direction) → Ordering
  | (d, direction) :: rest, (e, _) :: rest' =>
    let first := match direction with
      | .ascending => d.compare e
      | .descending => e.compare d
    first.then (compareKeys rest rest')
  | _, _ => .eq

/-- The combinations of rows on which all predicates of a query hold. -/
def kept (db : Database) (moment : Binary64) (q : Query) : List Combination :=
  let sites := q.predicateSites
  (db.combinations q.rootTables.toList).filter fun row =>
    Site.allHold db moment [.single row] sites

/-- The combinations of rows that a query selects, in its order.  Rows with equal keys stay in the
order of the combinations. -/
def selected (db : Database) (moment : Binary64) (q : Query) : List Combination :=
  let sites := q.orderSites
  let directions := q.order.map SortKey.direction
  let keyed := (q.kept db moment).map fun row =>
    ((Site.data db moment [.single row] sites).zip directions, row)
  (keyed.mergeSort fun a b => (compareKeys a.1 b.1).isLE).map (·.2)

/-- The frame of a query that gives a single row for all combinations that it keeps. -/
def summary (db : Database) (moment : Binary64) (q : Query) : Frame :=
  let rows := q.kept db moment
  let tables := (q.scope db).flatten
  let outer := [Frame.single (tables.map fun s => ⟨s.name, s.table, none⟩)]
  .summary tables rows ((q.resultSites ++ q.orderSites).flatMap fun s =>
    s.expr.tallies db moment [] s.joins outer 0 rows)

/-- The frames of the rows that a query gives, in its order. -/
def frames (db : Database) (moment : Binary64) (q : Query) : List Frame :=
  if q.isAggregate db then [q.summary db moment] else (q.selected db moment).map .single

end Query

namespace Database

/-! ### Results -/

/-- The names of the result values of a query. -/
def resultNames (db : Database) (q : Query) : List String :=
  if q.results.isEmpty then
    q.rootTables.toList.flatMap fun t =>
      (db.table? t).toList.flatMap fun t => t.columns.map (·.name)
  else q.names

/-- All cells of a combination of rows. -/
def allCells (row : Combination) : List Datum :=
  row.flatMap fun s => s.table.columns.map fun c => ((Cell.column c).operand s.content).datum

/-- The result values of a query on one of its rows. -/
def resultValues (db : Database) (moment : Binary64) (q : Query) (frame : Frame) : List Value :=
  let data := if q.results.isEmpty then allCells frame.current
    else Site.data db moment [frame] q.resultSites
  data.map Datum.toValue

/-- The rows of a query at a moment, each with one value for every result. -/
def run (db : Database) (moment : Binary64) (q : Query) : Except EngineError (List (List Value)) :=
  match q.fault? db with
  | some e => .error e
  | none => .ok ((q.frames db moment).map (db.resultValues moment q))

end Database

end LiveQuery
