import LiveQuery.Expr.Columns

/-!
# Queries

A query selects results, keeps the rows on which all predicates hold, and sorts them.  It names
no tables: its rows come from the tables that its expressions mention outside joins.

## Main definitions

* `SortKey`, `ResultColumn`, `Query`: queries and their parts.
* `Query.columns`, `Query.tables`, `Query.columnsOf`: what a query reads.
* `Query.rootTables`: the tables whose rows the query ranges over.
-/

namespace LiveQuery

/-- The direction of a sort key. -/
inductive Direction where
  | ascending
  | descending
deriving DecidableEq, Repr

/-- One key of an ordering. -/
structure SortKey where
  /-- What to sort by. -/
  expr : Expr
  /-- Whether small values come first or last. -/
  direction : Direction
deriving DecidableEq, Repr

/-- A selected result. -/
structure ResultColumn where
  /-- What is selected. -/
  expr : Expr
  /-- The name given to the result; without one it is named by its text. -/
  label : Option String
deriving DecidableEq, Repr

/-- A query.  The order of its parts matters: two queries are equal when all three lists are. -/
structure Query where
  /-- The results; none stands for all columns of the root tables. -/
  results : List ResultColumn
  /-- The conditions on a row, all of which have to hold. -/
  predicates : List Expr
  /-- The sort keys, the first one deciding first. -/
  order : List SortKey
deriving DecidableEq, Repr

namespace Query

/-- The expressions of a query: results, predicates and sort keys. -/
def exprs (q : Query) : List Expr :=
  q.results.map ResultColumn.expr ++ q.predicates ++ q.order.map SortKey.expr

/-- The columns that a query reads. -/
def columns (q : Query) : SortedSet Column := .ofList (q.exprs.flatMap Expr.mentions)

/-- The tables that a query reads, those behind joins included. -/
def tables (q : Query) : SortedSet String :=
  .ofList ((q.exprs.flatMap Expr.mentions).map Column.table)

/-- The names of the columns of one table that a query reads. -/
def columnsOf (q : Query) (table : String) : SortedSet String :=
  q.columns.filterMap fun c => if c.table = table then some c.name else none

/-- The tables whose rows a query ranges over: those mentioned outside joins. -/
def rootTables (q : Query) : SortedSet String := .ofList (q.exprs.flatMap Expr.roots)

theorem mem_columns {q : Query} {c : Column} : c ∈ q.columns ↔ ∃ e ∈ q.exprs, c ∈ e.columns := by
  simp [columns]

theorem mem_tables {q : Query} {t : String} :
    t ∈ q.tables ↔ ∃ c ∈ q.columns, c.table = t := by
  simp only [tables, columns, SortedSet.mem_ofList, List.mem_map]

theorem mem_columnsOf {q : Query} {t n : String} : n ∈ q.columnsOf t ↔ ⟨t, n⟩ ∈ q.columns := by
  simp only [columnsOf, SortedSet.mem_filterMap, Option.ite_none_right_eq_some, Option.some.injEq]
  constructor
  · rintro ⟨⟨t', n'⟩, h, rfl, rfl⟩
    exact h
  · exact fun h => ⟨_, h, rfl, rfl⟩

end Query

end LiveQuery
