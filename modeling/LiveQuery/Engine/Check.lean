import LiveQuery.Engine.Aggregate
import LiveQuery.Engine.Reading

/-!
# Checking statements

Before a statement runs, the engine reads it, finds its tables, resolves its names, and plans it.
Each of these ends at the first thing that is wrong, with one exception: names in the arguments of
a call, in the operand of a test for null, and in the result of a join are resolved even if
something was wrong before, and what is found last is what is reported.

A query finds all its tables first, those of its joins included.  An action finds its own table
first, and the tables of a join where it meets it.

## Main definitions

* `Findings`: what a check has found so far.
* `Expr.resolve`: resolving the names of an expression.
* `Query.fault?`, `Action.fault?`: what a check of a statement finds.
-/

namespace LiveQuery

/-! ### Findings -/

/-- What a check has found so far. -/
structure Findings where
  /-- What is wrong, as found last. -/
  error? : Option EngineError
  /-- How many parts of expressions stand within each other around the place that is checked. -/
  height : Nat
deriving DecidableEq, Repr

namespace Findings

/-- Nothing found. -/
def none : Findings := ⟨.none, 0⟩

/-- Whether something is wrong. -/
def failed (f : Findings) : Bool := f.error?.isSome

/-- Something else is wrong. -/
def report (f : Findings) (e : EngineError) : Findings := { f with error? := some e }

/-- Checks an expression of some height within what is checked.  If the whole is too high, the
expression is not looked into.  The result says whether to stop. -/
def within (f : Findings) (height : Nat) (check : Findings → Findings × Bool) : Findings × Bool :=
  let inner : Findings := { f with height := f.height + height }
  if Limit.depth < inner.height then (inner.report .tooDeep, true)
  else
    let f := (check inner).1
    ({ f with height := f.height - height }, f.failed)

/-- Goes on with a check unless it is to stop. -/
def andThen (done : Findings × Bool) (check : Findings → Findings × Bool) : Findings × Bool :=
  if done.2 then done else check done.1

end Findings

/-- What statements are checked against. -/
structure Checker where
  /-- The database. -/
  db : Database
  /-- Where the tokens of the statement stand. -/
  place : Nat → TextPlace

namespace Checker

/-- Finds some tables, one after the other. -/
def locate (c : Checker) (f : Findings) : List String → Findings × Bool
  | [] => (f, false)
  | t :: rest =>
    if (c.db.table? t).isSome then locate c f rest else (f.report (.noSuchTable t), true)

/-- Finds the table of a join, and then those of the joins inside it.  The latter are passed over
if something was wrong before. -/
def locateJoin (c : Checker) (f : Findings) (table : String) (inner : List String) :
    Findings × Bool :=
  Findings.andThen (c.locate f [table]) fun f => if f.failed then (f, true) else c.locate f inner

/-- Resolves a column before which `index` tokens stand. -/
def column (c : Checker) (scope : Scope Unit) (index : Nat) (qualifier name : String)
    (f : Findings) : Findings × Bool :=
  match scope.find qualifier name with
  | .found .. => (f, false)
  | .ambiguous => (f.report (.faulty (.ambiguousColumn qualifier name) (c.place index)), true)
  | .missing => (f.report (.faulty (.noSuchColumn qualifier name) (c.place index)), true)

/-- Resolves a function with a number of arguments.  Aggregates may stand in some places only. -/
def function (c : Checker) (allowed : Bool) (index : Nat) (fn : Builtin) (count : Nat)
    (f : Findings) : Findings :=
  if fn.isAggregate count then
    if allowed then f else f.report (.faulty (.misplacedAggregate fn) (c.place index))
  else if fn.accepts count then f
  else f.report (.faulty (.wrongArguments fn) (c.place index))

end Checker

/-! ### Expressions -/

namespace Expr

mutual

/-- The tables of the joins of an expression, in the order in which the joins begin. -/
def joinTables : Expr → List String
  | value _ => []
  | column _ => []
  | unary _ e => joinTables e
  | binary _ l r => joinTables l ++ joinTables r
  | call .now _ => []
  | call _ args => joinTablesAll args
  | join _ target inner => target.table :: joinTables inner

/-- The tables of the joins of some expressions. -/
def joinTablesAll : List Expr → List String
  | [] => []
  | e :: es => joinTables e ++ joinTablesAll es

end

mutual

/-- Resolves the names of an expression under some enclosing joins and in some scope, when `n` joins
of the statement have begun and `index` tokens stand before it.  `located` says whether the tables
of its joins have been found, and `allowed` whether aggregates may stand in it.  The result says
whether to stop. -/
def resolve (c : Checker) (located : Bool) (scopes : Scopes) (n index : Nat) (scope : Scope Unit)
    (allowed : Bool) : Expr → Findings → Findings × Bool
  | value _, f => (f, f.failed)
  | column d, f => c.column scope index (scopes.qualifier d.table) d.name f
  | unary op e, f =>
    if op = .isNull ∨ op = .isNotNull then
      ((resolve c located scopes n (index + 1) scope allowed e f).1, false)
    else if f.failed then (f, true)
    else resolve c located scopes n (index + 2) scope allowed e f
  | binary op l r, f =>
    match nullTest? op l r with
    | some (_, true) => ((resolve c located scopes n (index + 1) scope allowed l f).1, false)
    | some (_, false) =>
      ((resolve c located scopes (n + joins l) (index + 1) scope allowed r f).1, false)
    | none =>
      if f.failed then (f, true)
      else
        Findings.andThen (resolve c located scopes n (index + 1) scope allowed l f)
          (resolve c located scopes (n + joins l) (index + size l + 2) scope allowed r)
  | call .now _, f => (f, f.failed)
  | call fn args, f =>
    let inside := allowed && !fn.isAggregate args.length
    ((resolveAll c located scopes n (index + 1) scope inside args
      (c.function allowed index fn args.length f)).1, false)
  | join source target inner, f =>
    let row := joinAlias target.table (n + 1)
    let within := (target.table, row) :: scopes
    let inside : Scope Unit := c.db.source row target.table :: scope
    let keys := fun f => Findings.andThen
      (c.column inside (index + size inner + 7) row target.name f)
      (c.column inside (index + size inner + 9) (scopes.qualifier source.table) source.name)
    Findings.andThen (if located then (f, false) else
      c.locateJoin f target.table (joinTables inner)) fun f =>
    Findings.andThen (f.within (height inner)
      (resolve c true within (n + 1) (index + 2) inside true inner)) fun f =>
    f.within 3 keys

/-- Resolves the names of some expressions with a token behind each. -/
def resolveAll (c : Checker) (located : Bool) (scopes : Scopes) (n index : Nat)
    (scope : Scope Unit) (allowed : Bool) : List Expr → Findings → Findings × Bool
  | [], f => (f, false)
  | e :: es, f =>
    Findings.andThen (resolve c located scopes n index scope allowed e f)
      (resolveAll c located scopes (n + joins e) (index + size e + 1) scope allowed es)

end

end Expr

namespace Checker

/-! ### Parts of statements -/

/-- Resolves the names of an expression in a statement. -/
def site (c : Checker) (located : Bool) (scope : Scope Unit) (allowed : Bool) (s : Site)
    (f : Findings) : Findings × Bool :=
  f.within s.expr.height (s.expr.resolve c located [] s.joins s.index scope allowed)

/-- Resolves the names of some expressions in a statement, one after the other. -/
def sites (c : Checker) (located : Bool) (scope : Scope Unit) (allowed : Bool) :
    List Site → Findings → Findings × Bool
  | [], f => (f, false)
  | s :: rest, f =>
    Findings.andThen (c.site located scope allowed s f) (sites c located scope allowed rest)

/-- Resolves the names of some conditions in a statement, which are resolved as one. -/
def conditions (c : Checker) (located : Bool) (scope : Scope Unit) (allowed : Bool)
    (sites : List Site) (f : Findings) : Findings × Bool :=
  match sites with
  | [] => (f, false)
  | first :: _ =>
    f.within (Reading.conditions c.place sites).height
      (Expr.resolveAll c located [] first.joins first.index scope allowed (sites.map Site.expr))

/-- The aggregates in some parts of a statement that are over rows that are not aggregated;
`aggregated` says whether the rows of its own clause are. -/
def misuses (c : Checker) (scope : Scope Unit) (aggregated : Bool) (sites : List Site) :
    List AggregateCall :=
  sites.flatMap fun s =>
    (s.expr.aggregateCalls c.db [] s.joins s.index scope).filter fun a =>
      a.nested || (!aggregated && a.level? == some 0)

/-- What is wrong with the last one of some aggregates. -/
def misuse? (c : Checker) (calls : List AggregateCall) : Option EngineError :=
  calls.getLast?.map fun a => .faulty (.misusedAggregate a.function) (c.place a.index)

/-- What is wrong with a statement that is read, resolved and planned in turn. -/
def fault? (c : Checker) (tokens : List Token) (refusals : List Refusal)
    (resolve : Findings → Findings × Bool) (plan : Checker → Option EngineError) :
    Option EngineError :=
  (Reading.fault? tokens refusals).or <| (resolve .none).1.error?.or (plan c)

end Checker

/-! ### Queries -/

namespace Query

/-- The scope of the expressions of a query. -/
def scope (db : Database) (q : Query) : Scope Unit :=
  [q.rootTables.toList.flatMap fun t => db.source t t]

/-- Whether a query gives a single row for all rows that it selects. -/
def isAggregate (db : Database) (q : Query) : Bool :=
  q.resultSites.any fun s => s.expr.isAggregate db [] s.joins (q.scope db)

/-- How many results a query has. -/
def resultCount (db : Database) (q : Query) : Nat :=
  if q.results.isEmpty then ((q.scope db).flatten.flatMap fun s => s.table.columns).length
  else q.results.length

/-- Finds the tables of a query, and its results if it does not name them. -/
def locate (c : Checker) (q : Query) (f : Findings) : Findings × Bool :=
  Findings.andThen (c.locate f q.rootTables.toList) fun f =>
  if q.results.isEmpty && q.rootTables.isEmpty then (f.report .noTables, true)
  else if Limit.columns < q.resultCount c.db then (f.report .tooManyResults, true)
  else c.locate f (Expr.joinTablesAll q.exprs)

/-- Resolves the names of a query. -/
def resolve (c : Checker) (q : Query) (f : Findings) : Findings × Bool :=
  let scope := q.scope c.db
  Findings.andThen (q.locate c f) fun f =>
  Findings.andThen (c.sites true scope true q.resultSites f) fun f =>
  Findings.andThen (c.conditions true scope (q.isAggregate c.db) q.predicateSites f) fun f =>
  Findings.andThen (c.sites true scope true q.orderSites f) fun f =>
  if Limit.columns < q.order.length then (f.report .tooManyKeys, true) else (f, false)

/-- What is wrong with a query whose names are resolved. -/
def planFault? (q : Query) (c : Checker) : Option EngineError :=
  if Limit.tables < (q.scope c.db).flatten.length then some .tooManyTables
  else
    let scope := q.scope c.db
    c.misuse? (c.misuses scope false q.predicateSites ++
      c.misuses scope (q.isAggregate c.db) (q.resultSites ++ q.orderSites))

/-- What is wrong with the tables that a query names. -/
def sourceRefusals (q : Query) : List Refusal :=
  if Limit.sources < q.rootTables.toList.length then
    [⟨q.resultTokens.length + 2 * Limit.sources + 3, .tooManySources⟩]
  else []

/-- What is wrong with a query. -/
def fault? (db : Database) (q : Query) : Option EngineError :=
  let tokens := q.tokens
  let c : Checker := ⟨db, Token.place tokens⟩
  c.fault? tokens (Reading.siteRefusals c.place q.resultSites ++ q.sourceRefusals ++
    (Reading.conditions c.place q.predicateSites).refusals ++
    Reading.siteRefusals c.place q.orderSites) (q.resolve c) q.planFault?

end Query

/-! ### Actions -/

namespace Action

/-- Whether a table has a column to which values can be assigned.  The row number is one. -/
def isTarget (t : Table) (column : String) : Bool :=
  (t.column? column).isSome || isRowNumberName column

/-- Resolves the assignments of an update, one after the other.  The column is looked for after the
names in its value. -/
def resolveAssignments (c : Checker) (t : Table) (scope : Scope Unit) :
    List (String × Site) → Findings → Findings × Bool
  | [], f => (f, false)
  | (column, s) :: rest, f =>
    Findings.andThen (c.site false scope false s f) fun f =>
    if isTarget t column then resolveAssignments c t scope rest f
    else (f.report (.noSuchTarget column), true)

/-- The scope of the expressions of an action. -/
def scope (db : Database) : Action → Scope Unit
  | insert .. => []
  | update table .. => [db.source table table]
  | delete table _ => [db.source table table]

/-- Resolves the names of an action on a table that is there. -/
def resolveOn (c : Checker) (a : Action) (t : Table) (f : Findings) : Findings × Bool :=
  let scope := a.scope c.db
  match a with
  | insert table values =>
    match values.keys.find? fun column => !isTarget t column with
    | some column => (f.report (.unknownColumn table column), true)
    | none => c.sites false scope false a.valueSites f
  | update _ values _ =>
    Findings.andThen (resolveAssignments c t scope (values.keys.zip a.valueSites) f)
      (c.conditions false scope false a.predicateSites)
  | delete .. => c.conditions false scope false a.predicateSites f

/-- How many columns an update assigns. -/
def assignmentCount : Action → Nat
  | update _ values _ => values.keys.length
  | _ => 0

/-- Resolves the names of an action. -/
def resolve (c : Checker) (a : Action) (f : Findings) : Findings × Bool :=
  if Limit.columns < a.assignmentCount then (f.report .tooManyAssignments, true)
  else
    match c.db.table? a.table with
    | none => (f.report (.noSuchTable a.table), true)
    | some t =>
      if Database.isReadOnly t.name then (f.report (.readOnly t.name), true)
      else a.resolveOn c t f

/-- What is wrong with an action whose names are resolved. -/
def planFault? (a : Action) (c : Checker) : Option EngineError :=
  c.misuse? (c.misuses (a.scope c.db) false (a.predicateSites ++ a.valueSites))

/-- What is wrong with an action. -/
def fault? (db : Database) (a : Action) : Option EngineError :=
  let tokens := a.tokens
  let c : Checker := ⟨db, Token.place tokens⟩
  c.fault? tokens (Reading.siteRefusals c.place a.valueSites ++
    (Reading.conditions c.place a.predicateSites).refusals) (a.resolve c) a.planFault?

end Action

end LiveQuery
