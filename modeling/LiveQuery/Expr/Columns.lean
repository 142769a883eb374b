import LiveQuery.Expr.Basic
import LiveQuery.Sorted.Set

/-!
# Columns of an expression

Which columns and tables an expression reads, which of the tables it reads on the current row
itself rather than behind a join, and by which columns its joins find their rows.

## Main definitions

* `Expr.mentions`: every column occurrence, joins and their insides included.
* `Expr.columns`, `Expr.tables`: the columns and tables read, as sets.
* `Expr.roots`: the tables of the occurrences outside joins.
* `Expr.joinKeys`: the two columns of every join.
-/

namespace LiveQuery

namespace Expr

mutual

/-- Every occurrence of a column, in the order of the expression.  A join mentions both of its
key columns and all that its inner expression mentions. -/
def mentions : Expr → List Column
  | value _ => []
  | column c => [c]
  | unary _ e => mentions e
  | binary _ l r => mentions l ++ mentions r
  | call _ args => mentionsAll args
  | join source target inner => source :: target :: mentions inner

/-- Every occurrence of a column in some expressions. -/
def mentionsAll : List Expr → List Column
  | [] => []
  | e :: es => mentions e ++ mentionsAll es

end

mutual

/-- The tables of the columns that are evaluated on the current row: all but those inside
joins. -/
def roots : Expr → List String
  | value _ => []
  | column c => [c.table]
  | unary _ e => roots e
  | binary _ l r => roots l ++ roots r
  | call _ args => rootsAll args
  | join source _ _ => [source.table]

/-- The tables of the columns of some expressions that are evaluated on the current row. -/
def rootsAll : List Expr → List String
  | [] => []
  | e :: es => roots e ++ rootsAll es

end

mutual

/-- The referring column and the referred column of every join, outer joins first. -/
def joinKeys : Expr → List (Column × Column)
  | value _ => []
  | column _ => []
  | unary _ e => joinKeys e
  | binary _ l r => joinKeys l ++ joinKeys r
  | call _ args => joinKeysAll args
  | join source target inner => (source, target) :: joinKeys inner

/-- The columns of every join in some expressions. -/
def joinKeysAll : List Expr → List (Column × Column)
  | [] => []
  | e :: es => joinKeys e ++ joinKeysAll es

end

/-- The columns that an expression reads. -/
def columns (e : Expr) : SortedSet Column := .ofList e.mentions

/-- The tables that an expression reads. -/
def tables (e : Expr) : SortedSet String := .ofList (e.mentions.map Column.table)

@[simp] theorem mem_columns {e : Expr} {c : Column} : c ∈ e.columns ↔ c ∈ e.mentions := by
  simp [columns]

@[simp] theorem mem_tables {e : Expr} {t : String} :
    t ∈ e.tables ↔ ∃ c ∈ e.columns, c.table = t := by
  simp [tables]

@[simp] theorem mem_mentionsAll {es : List Expr} {c : Column} :
    c ∈ mentionsAll es ↔ ∃ e ∈ es, c ∈ e.mentions := by
  induction es <;> simp_all [mentionsAll]

@[simp] theorem mem_rootsAll {es : List Expr} {t : String} :
    t ∈ rootsAll es ↔ ∃ e ∈ es, t ∈ e.roots := by
  induction es <;> simp_all [rootsAll]

@[simp] theorem mem_joinKeysAll {es : List Expr} {k : Column × Column} :
    k ∈ joinKeysAll es ↔ ∃ e ∈ es, k ∈ e.joinKeys := by
  induction es <;> simp_all [joinKeysAll]

end Expr

end LiveQuery
