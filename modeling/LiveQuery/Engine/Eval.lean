import LiveQuery.Engine.Aggregate

/-!
# Evaluation of expressions

An expression means what its rendered form means.  A column is looked up under the name that
qualifies it in the statement.  A join looks for the first row of its table, under the alias of the
join, on which the key equals the referring column, and evaluates its inner expression with that
row in scope; if there is no such row, the result is null.

If the inner expression of a join has an aggregate over the rows of the join, the join gives one
result for all rows on which the key equals the referring column, even if there are none.  Columns
outside the aggregate are then read from the row that the last aggregate took its value from.

## Main definitions

* `Frame`: the rows of a clause around a place.
* `Expr.eval`, `Expr.evalAll`: the operands that expressions amount to.
* `Expr.tallies`: the values of aggregates on rows.
* `Frame.summary`: the frame of a clause whose rows are aggregated.
-/

namespace LiveQuery

/-- One row of every table of a clause; a row is missing if there are no rows to aggregate. -/
abbrev Combination : Type := List (Source (Option NumberedRow))

/-- The rows of a clause around a place. -/
structure Frame where
  /-- The current row of every table. -/
  current : Combination
  /-- The rows over which aggregates are taken. -/
  all : List Combination

namespace Frame

/-- The frame of a clause whose rows are looked at one by one. -/
def single (row : Combination) : Frame := ⟨row, []⟩

/-- The scope that some frames make. -/
def scope (frames : List Frame) : Scope (Option NumberedRow) := frames.map Frame.current

/-- Some frames with another row in one of them, looked at by itself. -/
def withRow (frames : List Frame) (level : Nat) (row : Combination) : List Frame :=
  frames.set level (single row)

end Frame

/-- The content of a table that is named in a statement.  Checked statements name no others. -/
def Database.rows (db : Database) (name table : String) : List (Source (Option NumberedRow)) :=
  match db.table? table with
  | some t => t.rows.toList.map fun row => ⟨name, t, some row⟩
  | none => []

/-! ### Aggregates over rows -/

/-- The values of an aggregate's argument on some rows, one after the other. -/
structure Tally where
  /-- The function. -/
  function : Builtin
  /-- The argument, if equal ones are the same. -/
  argument? : Option (List Expr)
  /-- The values. -/
  values : List Datum

namespace Tally

/-- Whether two tallies are of the same aggregate. -/
def same (a b : Tally) : Bool :=
  a.function == b.function && a.argument?.isSome && a.argument? == b.argument?

/-- The last one of some aggregates, each of which counts only where it occurs first. -/
def last? (tallies : List Tally) : Option Tally :=
  (tallies.foldl (fun seen t => if seen.any t.same then seen else seen ++ [t]) []).getLast?

/-- The row that an aggregate takes its value from, or the last one before it has a value.
`best?` is the value before some rows. -/
def source? {α : Type} (replaces : Ordering → Bool) (best? : Option Datum) (row? : Option α) :
    List (Datum × α) → Option α
  | [] => row?
  | (d, row) :: rest =>
    match best? with
    | none => source? replaces (if d.isNull then none else some d) (some row) rest
    | some best =>
      if !d.isNull && replaces (best.compare d) then source? replaces (some d) (some row) rest
      else source? replaces best? row? rest

end Tally

/-- When a later datum takes the place of the best one before it. -/
def Builtin.replaces (f : Builtin) (o : Ordering) : Bool := if f == max then o == .lt else o == .gt

/-- The value of an aggregate over some data, of which null is none. -/
def Builtin.aggregate (f : Builtin) (data : List Datum) : Datum :=
  match data.filter fun d => !d.isNull with
  | [] => .null
  | d :: rest => rest.foldl (fun best d => if f.replaces (best.compare d) then d else best) d

/-- The frame of a clause with some rows that are aggregated, with the tallies of its aggregates on
these rows.  A table has no current row if there are none. -/
def Frame.summary (tables : List (Source Unit)) (rows : List Combination) (tallies : List Tally) :
    Frame where
  current :=
    ((Tally.last? tallies).bind fun t =>
      Tally.source? t.function.replaces none none (t.values.zip rows)).getD
      (tables.map fun s => ⟨s.name, s.table, none⟩)
  all := rows

namespace Expr

/-! ### Evaluation -/

mutual

/-- What an expression amounts to at a moment, under some enclosing joins and with some rows around
it, when `n` joins of the statement have begun before it.  Comparing with the null literal tests
for null. -/
def eval (db : Database) (moment : Binary64) (scopes : Scopes) (n : Nat) (frames : List Frame) :
    Expr → Operand
  | value v => .computed (.ofValue v)
  | column c => (Frame.scope frames).operand (scopes.qualifier c.table) c.name
  | unary op e => .computed (op.apply (eval db moment scopes n frames e).datum)
  | binary op l r =>
    let left := eval db moment scopes n frames l
    let right := eval db moment scopes (n + joins l) frames r
    match nullTest? op l r with
    | some (test, true) => .computed (test.apply left.datum)
    | some (test, false) => .computed (test.apply right.datum)
    | none => .computed (op.apply left right)
  | call .now _ => .computed (.real moment)
  | call f args =>
    if f.isAggregate args.length then
      let level := ownLevel db scopes n (Frame.scope frames).shape args
      let rows := (frames[level]?.map Frame.all).getD []
      .computed (f.aggregate (rows.flatMap fun row =>
        (evalAll db moment scopes n (Frame.withRow frames level row) args).map (·.datum)))
    else .computed (f.apply moment ((evalAll db moment scopes n frames args).map (·.datum)))
  | join source target inner =>
    let row := joinAlias target.table (n + 1)
    let within := (target.table, row) :: scopes
    let refers := fun candidate =>
      let inside : Scope (Option NumberedRow) := [candidate] :: Frame.scope frames
      (BinaryOp.apply .equal (inside.operand row target.name)
        (inside.operand (scopes.qualifier source.table) source.name)).truth == some true
    let tables := db.source row target.table
    if inner.isAggregate db within (n + 1) (tables :: (Frame.scope frames).shape) then
      let rows := ((db.rows row target.table).filter refers).map fun candidate => [candidate]
      let outer := Frame.single (tables.map fun s => ⟨s.name, s.table, none⟩) :: frames
      let frame := Frame.summary tables rows
        (tallies db moment within (n + 1) outer 0 rows inner)
      eval db moment within (n + 1) (frame :: frames) inner
    else
      match (db.rows row target.table).find? refers with
      | some candidate => eval db moment within (n + 1) (.single [candidate] :: frames) inner
      | none => .computed .null

/-- What some expressions amount to that are rendered one after the other. -/
def evalAll (db : Database) (moment : Binary64) (scopes : Scopes) (n : Nat)
    (frames : List Frame) : List Expr → List Operand
  | [] => []
  | e :: es =>
    eval db moment scopes n frames e :: evalAll db moment scopes (n + joins e) frames es

/-- The values on some rows of the aggregates in an expression that are taken over the rows of the
clause with a number. -/
def tallies (db : Database) (moment : Binary64) (scopes : Scopes) (n : Nat) (frames : List Frame)
    (level : Nat) (rows : List Combination) : Expr → List Tally
  | value _ => []
  | column _ => []
  | unary _ e => tallies db moment scopes n frames level rows e
  | binary _ l r => tallies db moment scopes n frames level rows l ++
      tallies db moment scopes (n + joins l) frames level rows r
  | call .now _ => []
  | call f args =>
    let shape := (Frame.scope frames).shape
    if f.isAggregate args.length && ownLevel db scopes n shape args == level then
      [⟨f, settledAll? scopes shape args, rows.flatMap fun row =>
        (evalAll db moment scopes n (Frame.withRow frames level row) args).map (·.datum)⟩]
    else talliesAll db moment scopes n frames level rows args
  | join _ target inner =>
    let row := joinAlias target.table (n + 1)
    let tables := db.source row target.table
    tallies db moment ((target.table, row) :: scopes) (n + 1)
      (.single (tables.map fun s => ⟨s.name, s.table, none⟩) :: frames) (level + 1) rows inner

/-- The values on some rows of the aggregates in some expressions that are taken over the rows of
the clause with a number. -/
def talliesAll (db : Database) (moment : Binary64) (scopes : Scopes) (n : Nat)
    (frames : List Frame) (level : Nat) (rows : List Combination) : List Expr → List Tally
  | [] => []
  | e :: es => tallies db moment scopes n frames level rows e ++
      talliesAll db moment scopes (n + joins e) frames level rows es

end

end Expr

/-! ### Sites -/

namespace Site

/-- The data of some expressions of a statement on some rows. -/
def data (db : Database) (moment : Binary64) (frames : List Frame) (sites : List Site) :
    List Datum :=
  sites.map fun s => (s.expr.eval db moment [] s.joins frames).datum

/-- Whether some conditions hold: all of them are known to be true. -/
def allHold (db : Database) (moment : Binary64) (frames : List Frame) (sites : List Site) : Bool :=
  (data db moment frames sites).all fun d => d.truth == some true

end Site

end LiveQuery
