import LiveQuery.Engine.Scope
import LiveQuery.Statement.Render

/-!
# Aggregates

The greatest or least value of one expression is taken over rows, whereas that of several
expressions is taken of their values on one row.  The rows are those of the innermost clause whose
tables the expression looks into; a clause of its own if it looks into none.

Selecting an aggregate of its own clause makes a query give a single row.

## Main definitions

* `Builtin.isAggregate`: which calls are aggregates.
* `Expr.levels`: the clauses that an expression looks into.
* `AggregateCall`, `Expr.aggregateCalls`: the aggregates in an expression, with their clauses.
* `Expr.settled?`: the form in which equal aggregates are the same.
-/

namespace LiveQuery

/-- Whether a function with so many arguments is an aggregate. -/
def Builtin.isAggregate (f : Builtin) (count : Nat) : Bool := (f == max || f == min) && count == 1

/-- An aggregate in an expression. -/
structure AggregateCall where
  /-- The function. -/
  function : Builtin
  /-- How many tokens stand before it. -/
  index : Nat
  /-- The clause over whose rows it is taken, if it is none of the joins in the expression. -/
  level? : Option Nat
  /-- Whether it stands within another aggregate over the same rows. -/
  nested : Bool
deriving DecidableEq, Repr

namespace Expr

/-! ### Clauses -/

mutual

/-- The clauses around an expression that it looks into, under some enclosing joins, when `n` joins
of the statement have begun before it. -/
def levels (db : Database) (scopes : Scopes) (n : Nat) (scope : Scope Unit) : Expr → List Nat
  | value _ => []
  | column c => (scope.level? (scopes.qualifier c.table) c.name).toList
  | unary _ e => levels db scopes n scope e
  | binary _ l r => levels db scopes n scope l ++ levels db scopes (n + joins l) scope r
  | call .now _ => []
  | call _ args => levelsAll db scopes n scope args
  | join source target inner =>
    let row := joinAlias target.table (n + 1)
    let inside : Scope Unit := db.source row target.table :: scope
    let keys := (inside.level? row target.name).toList ++
      (inside.level? (scopes.qualifier source.table) source.name).toList
    (levels db ((target.table, row) :: scopes) (n + 1) inside inner ++ keys).filterMap fun
      | 0 => none
      | level + 1 => some level

/-- The clauses around some expressions that they look into. -/
def levelsAll (db : Database) (scopes : Scopes) (n : Nat) (scope : Scope Unit) :
    List Expr → List Nat
  | [] => []
  | e :: es => levels db scopes n scope e ++ levelsAll db scopes (n + joins e) scope es

end

/-- The clause over whose rows an aggregate with some arguments is taken. -/
def ownLevel (db : Database) (scopes : Scopes) (n : Nat) (scope : Scope Unit)
    (args : List Expr) : Nat :=
  (levelsAll db scopes n scope args).min?.getD 0

mutual

/-- The aggregates in an expression, when `index` tokens stand before it. -/
def aggregateCalls (db : Database) (scopes : Scopes) (n index : Nat) (scope : Scope Unit) :
    Expr → List AggregateCall
  | value _ => []
  | column _ => []
  | unary op e =>
    aggregateCalls db scopes n (if op = .isNull ∨ op = .isNotNull then index + 1 else index + 2)
      scope e
  | binary op l r =>
    let right := if (nullTest? op l r).isSome then index + 1 else index + l.size + 2
    aggregateCalls db scopes n (index + 1) scope l ++
      aggregateCalls db scopes (n + joins l) right scope r
  | call .now _ => []
  | call f args =>
    let inner := aggregateCallsAll db scopes n (index + 1) scope args
    if f.isAggregate args.length then
      let level? := some (ownLevel db scopes n scope args)
      ⟨f, index, level?, false⟩ ::
        inner.map fun a => { a with nested := a.nested || a.level? == level? }
    else inner
  | join _ target inner =>
    let row := joinAlias target.table (n + 1)
    let inside := db.source row target.table :: scope
    (aggregateCalls db ((target.table, row) :: scopes) (n + 1) (index + 2) inside
      inner).map fun a =>
        { a with level? := a.level?.bind fun level => if level = 0 then none else some (level - 1) }

/-- The aggregates in some expressions. -/
def aggregateCallsAll (db : Database) (scopes : Scopes) (n index : Nat) (scope : Scope Unit) :
    List Expr → List AggregateCall
  | [] => []
  | e :: es => aggregateCalls db scopes n index scope e ++
      aggregateCallsAll db scopes (n + joins e) (index + e.size + 1) scope es

end

/-- Whether an expression has an aggregate over the rows of the clause right around it. -/
def isAggregate (db : Database) (scopes : Scopes) (n : Nat) (scope : Scope Unit) (e : Expr) :
    Bool :=
  (aggregateCalls db scopes n 0 scope e).any (·.level? == some 0)

/-! ### Sameness -/

mutual

/-- The form of an expression in which columns go by their declared names.  There is none for an
expression with a parameter or a join: it is never the same as another one. -/
def settled? (scopes : Scopes) (scope : Scope Unit) : Expr → Option Expr
  | value v => if v.isNull then some null else none
  | column c =>
    match scope.find (scopes.qualifier c.table) c.name with
    | .found level source (.column d) =>
      if source.table.rowidColumn? = some d.name then some (rowNumber level source)
      else some (column ⟨toString level ++ "." ++ Caseless.fold source.name, d.name⟩)
    | .found level source .rowNumber => some (rowNumber level source)
    | _ => none
  | unary op e => (settled? scopes scope e).map (unary op)
  | binary op l r =>
    match settled? scopes scope l, settled? scopes scope r with
    | some l', some r' =>
      match nullTest? op l r with
      | some (test, true) => some (unary test l')
      | some (test, false) => some (unary test r')
      | none => some (binary op l' r')
    | _, _ => none
  | call .now _ => some now
  | call f args => (settledAll? scopes scope args).map (call f)
  | join .. => none
where
  /-- The number of a row in a clause. -/
  rowNumber (level : Nat) (source : Source Unit) : Expr :=
    column ⟨toString level ++ "." ++ Caseless.fold source.name, ""⟩

/-- The forms of some expressions in which columns go by their declared names. -/
def settledAll? (scopes : Scopes) (scope : Scope Unit) : List Expr → Option (List Expr)
  | [] => some []
  | e :: es =>
    match settled? scopes scope e, settledAll? scopes scope es with
    | some e', some es' => some (e' :: es')
    | _, _ => none

end

end Expr

end LiveQuery
