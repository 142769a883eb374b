import LiveQuery.Value.Basic

/-!
# Expressions

An expression is evaluated on a row of a table.  A relationship between tables appears as a
join: an inner expression evaluated on the row of another table that the current row refers to.
Expressions are plain trees, equal when they have the same shape and leaves; `a = b` and `b = a`
are two expressions.

## Main definitions

* `Column`: a column of a table, with its order.
* `UnaryOp`, `BinaryOp`, `Builtin`: operators and functions.
* `Expr`: expressions, with decidable equality.
* `Expr.induct`: induction over an expression and its argument lists.
-/

namespace LiveQuery

open Std

/-! ### Columns -/

/-- A column of a table. -/
structure Column where
  /-- The table's name. -/
  table : String
  /-- The column's name. -/
  name : String
deriving DecidableEq, Inhabited, Repr

namespace Column

/-- Columns are ordered by table, then by name. -/
instance : Ord Column := ⟨compareLex (compareOn Column.table) (compareOn Column.name)⟩

instance : TransOrd Column :=
  inferInstanceAs (TransCmp (compareLex (compareOn Column.table) (compareOn Column.name)))

instance : LawfulEqOrd Column where
  compare_self := ReflCmp.compare_self
  eq_of_compare {a b} h := by
    have h' := compareLex_eq_eq.1 h
    obtain ⟨t, n⟩ := a
    obtain ⟨t', n'⟩ := b
    simpa [compareOn] using h'

end Column

/-! ### Operators -/

/-- An operator with one operand. -/
inductive UnaryOp where
  | not
  | negate
  | isNull
  | isNotNull
deriving DecidableEq, Repr

/-- The name of the operator in documents and descriptions. -/
def UnaryOp.title : UnaryOp → String
  | not => "Not"
  | negate => "Negate"
  | isNull => "IsNull"
  | isNotNull => "IsNotNull"

/-- All operators with one operand. -/
def UnaryOp.all : List UnaryOp := [not, negate, isNull, isNotNull]

/-- An operator with two operands. -/
inductive BinaryOp where
  | equal
  | notEqual
  | less
  | greater
  | lessOrEqual
  | greaterOrEqual
  | and
  | or
  | add
  | subtract
  | multiply
  | divide
  | concatenate
deriving DecidableEq, Repr

/-- The sign of the operator in statements. -/
def BinaryOp.symbol : BinaryOp → String
  | equal => "="
  | notEqual => "!="
  | less => "<"
  | greater => ">"
  | lessOrEqual => "<="
  | greaterOrEqual => ">="
  | and => "AND"
  | or => "OR"
  | add => "+"
  | subtract => "-"
  | multiply => "*"
  | divide => "/"
  | concatenate => "||"

/-- The name of the operator in documents and descriptions. -/
def BinaryOp.title : BinaryOp → String
  | equal => "Equal"
  | notEqual => "NotEqual"
  | less => "Less"
  | greater => "Greater"
  | lessOrEqual => "LessOrEqual"
  | greaterOrEqual => "GreaterOrEqual"
  | and => "And"
  | or => "Or"
  | add => "Add"
  | subtract => "Subtract"
  | multiply => "Multiply"
  | divide => "Divide"
  | concatenate => "Concatenate"

/-- All operators with two operands. -/
def BinaryOp.all : List BinaryOp :=
  [equal, notEqual, less, greater, lessOrEqual, greaterOrEqual, and, or, add, subtract, multiply,
    divide, concatenate]

/-- A function of the engine. -/
inductive Builtin where
  /-- The greatest argument. -/
  | max
  /-- The least argument. -/
  | min
  /-- The current moment in seconds since the epoch, whatever the arguments. -/
  | now
  /-- The first argument that is not null. -/
  | coalesce
  /-- The length of a text or blob. -/
  | length
deriving DecidableEq, Repr

/-- The name of the function in statements. -/
def Builtin.name : Builtin → String
  | max => "max"
  | min => "min"
  | now => "now"
  | coalesce => "coalesce"
  | length => "length"

/-- The name of the function in documents and descriptions. -/
def Builtin.title : Builtin → String
  | max => "Max"
  | min => "Min"
  | now => "Now"
  | coalesce => "Coalesce"
  | length => "Length"

/-- All functions. -/
def Builtin.all : List Builtin := [max, min, now, coalesce, length]

/-! ### Expressions -/

/-- An expression over the current row. -/
inductive Expr where
  /-- A constant. -/
  | value (v : Value)
  /-- A column of the current row. -/
  | column (c : Column)
  /-- An operation on one operand. -/
  | unary (op : UnaryOp) (operand : Expr)
  /-- An operation on two operands. -/
  | binary (op : BinaryOp) (left right : Expr)
  /-- A function call. -/
  | call (f : Builtin) (args : List Expr)
  /-- The inner expression, evaluated on the row of `target.table` whose column `target` equals
  the column `source` of the current row. -/
  | join (source target : Column) (inner : Expr)
deriving Inhabited, Repr

namespace Expr

/-- The null literal. -/
def null : Expr := value .null

/-- The current moment. -/
def now : Expr := call .now []

/-- Whether an expression is the null literal. -/
def isNullLiteral : Expr → Bool
  | value .null => true
  | _ => false

/-- Induction over expressions, with the hypothesis for every argument of a call. -/
theorem induct {P : Expr → Prop} (value : ∀ v, P (value v)) (column : ∀ c, P (column c))
    (unary : ∀ op e, P e → P (unary op e))
    (binary : ∀ op l r, P l → P r → P (binary op l r))
    (call : ∀ f args, (∀ a ∈ args, P a) → P (call f args))
    (join : ∀ c d e, P e → P (join c d e)) (e : Expr) : P e :=
  Expr.rec (motive_1 := P) (motive_2 := fun args => ∀ a ∈ args, P a) value column
    (fun op _ h => unary op _ h) (fun op _ _ hl hr => binary op _ _ hl hr)
    (fun f args h => call f args h) (fun c d _ h => join c d _ h)
    (fun _ h => absurd h List.not_mem_nil)
    (fun _ _ ha has _ h => (List.mem_cons.1 h).elim (fun h => h ▸ ha) (has _)) e

/-! ### Equality -/

mutual

/-- Structural equality as a test. -/
def same : Expr → Expr → Bool
  | value v, value w => v == w
  | column c, column d => c == d
  | unary op e, unary op' e' => op == op' && same e e'
  | binary op l r, binary op' l' r' => op == op' && same l l' && same r r'
  | call f args, call f' args' => f == f' && sameAll args args'
  | join c d e, join c' d' e' => c == c' && d == d' && same e e'
  | _, _ => false

/-- Structural equality of argument lists as a test. -/
def sameAll : List Expr → List Expr → Bool
  | [], [] => true
  | e :: es, e' :: es' => same e e' && sameAll es es'
  | _, _ => false

end

theorem sameAll_eq_true_iff {as bs : List Expr}
    (h : ∀ a ∈ as, ∀ b, same a b = true ↔ a = b) : sameAll as bs = true ↔ as = bs := by
  induction as generalizing bs with
  | nil => cases bs <;> simp [sameAll]
  | cons a as ih =>
    cases bs with
    | nil => simp [sameAll]
    | cons b bs =>
      simp [sameAll, h a List.mem_cons_self, ih fun x hx => h x (List.mem_cons_of_mem _ hx)]

theorem same_eq_true_iff {a b : Expr} : same a b = true ↔ a = b := by
  induction a using induct generalizing b with
  | value v => cases b <;> simp [same]
  | column c => cases b <;> simp [same]
  | unary op e ih => cases b <;> simp [same, ih]
  | binary op l r ihl ihr => cases b <;> simp [same, ihl, ihr, and_assoc]
  | call f args ih =>
    cases b <;> simp [same]
    intro _
    exact sameAll_eq_true_iff fun a ha b => ih a ha
  | join c d e ih => cases b <;> simp [same, ih, and_assoc]

instance : DecidableEq Expr := fun _ _ => decidable_of_iff _ same_eq_true_iff

end Expr

end LiveQuery
