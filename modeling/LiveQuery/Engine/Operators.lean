import LiveQuery.Engine.Datum
import LiveQuery.Expr.Basic

/-!
# Operators on data

What the storage engine computes for operators and functions.  Null stands for an unknown datum:
comparing or computing with it gives null, and the connectives follow three-valued logic.  Truth
values are the integers one and zero.

An operand remembers the type of the column that it is read from.  A comparison takes its operands
for numbers if one of them comes from a column of numbers, and for texts if one comes from a text
column and the other from no column.

## Main definitions

* `Operand`: a datum with the type of its column.
* `Operand.compare`: the comparison of two operands.
* `UnaryOp.apply`, `BinaryOp.apply`, `Builtin.apply`: operators and functions.
-/

namespace LiveQuery

/-! ### Operands -/

/-- A datum with the type of the column that it is read from, if it is. -/
structure Operand where
  /-- The datum. -/
  datum : Datum
  /-- The type of its column. -/
  type? : Option DataType
deriving DecidableEq, Repr

namespace Operand

/-- An operand that is not read from a column. -/
def computed (d : Datum) : Operand := ⟨d, none⟩

/-- What two operands of a comparison are taken for. -/
inductive Guise where
  | asIs
  | numeric
  | textual

/-- What operands from columns of some types are taken for. -/
def guise : Option DataType → Option DataType → Guise
  | some s, some t => if s.isNumeric || t.isNumeric then .numeric else .asIs
  | some s, none => single s
  | none, some t => single t
  | none, none => .asIs
where
  /-- What the operands are taken for if only one of them comes from a column. -/
  single (t : DataType) : Guise :=
    match t with
    | .integer => .numeric
    | .real => .numeric
    | .text => .textual
    | .blob => .asIs

/-- Compares two operands.  Numbers become texts only for the sake of a text. -/
def compare (a b : Operand) : Ordering :=
  match guise a.type? b.type? with
  | .asIs => a.datum.compare b.datum
  | .numeric => a.datum.numeric.compare b.datum.numeric
  | .textual =>
    match a.datum, b.datum with
    | .text _, d => a.datum.compare d.textual
    | d, .text _ => d.textual.compare b.datum
    | d, e => d.compare e

/-- The result of a comparison: unknown if an operand is null. -/
def comparison (test : Ordering → Bool) (a b : Operand) : Datum :=
  if a.datum.isNull || b.datum.isNull then .null else .ofTruth (some (test (a.compare b)))

end Operand

namespace Datum

/-! ### Arithmetic -/

/-- Arithmetic on two operands: exact on integers as long as the result has 64 bits, and real
otherwise. -/
def arithmetic (exact : Int → Int → Int) (inexact : Binary64 → Binary64 → Binary64)
    (a b : Datum) : Datum :=
  if a.isNull || b.isNull then null
  else
    let result? := match a.integer?, b.integer? with
      | some i, some j => narrow? (exact i.toInt j.toInt)
      | _, _ => none
    match result? with
    | some k => integer k
    | none => ofReal (inexact a.nearestReal b.nearestReal)

/-- Division, toward zero on integers.  Division by zero is null. -/
def quotient (a b : Datum) : Datum :=
  if b.nearestReal.isZero then null else arithmetic Int.tdiv Binary64.div a b

/-! ### Connectives and texts -/

/-- Conjunction: false if either operand is, true if both are. -/
def conjunction : Option Bool → Option Bool → Option Bool
  | some false, _ => some false
  | _, some false => some false
  | some true, some true => some true
  | _, _ => none

/-- Disjunction: true if either operand is, false if both are. -/
def disjunction : Option Bool → Option Bool → Option Bool
  | some true, _ => some true
  | _, some true => some true
  | some false, some false => some false
  | _, _ => none

/-- One text after the other. -/
def concatenation (a b : Datum) : Datum :=
  match a.textBytes?, b.textBytes? with
  | some s, some t => text (s ++ t)
  | _, _ => null

/-! ### Functions -/

/-- The extreme of some data, null if one of them is.  `replaces` says when a later datum takes the
place of the best one before it. -/
def extreme (replaces : Ordering → Bool) (args : List Datum) : Datum :=
  if args.any isNull then null
  else
    match args with
    | [] => null
    | a :: rest => rest.foldl (fun best d => if replaces (best.compare d) then d else best) a

end Datum

/-! ### Applying operators -/

/-- The result of an operator on one operand. -/
def UnaryOp.apply (op : UnaryOp) (d : Datum) : Datum :=
  match op with
  | not => .ofTruth (d.truth.map (!·))
  | negate => .arithmetic (· - ·) Binary64.sub (.integer 0) d
  | isNull => .ofTruth (some d.isNull)
  | isNotNull => .ofTruth (some !d.isNull)

/-- The result of an operator on two operands. -/
def BinaryOp.apply (op : BinaryOp) (a b : Operand) : Datum :=
  match op with
  | equal => a.comparison (· == .eq) b
  | notEqual => a.comparison (· != .eq) b
  | less => a.comparison (· == .lt) b
  | greater => a.comparison (· == .gt) b
  | lessOrEqual => a.comparison (· != .gt) b
  | greaterOrEqual => a.comparison (· != .lt) b
  | and => .ofTruth (Datum.conjunction a.datum.truth b.datum.truth)
  | or => .ofTruth (Datum.disjunction a.datum.truth b.datum.truth)
  | add => .arithmetic (· + ·) Binary64.add a.datum b.datum
  | subtract => .arithmetic (· - ·) Binary64.sub a.datum b.datum
  | multiply => .arithmetic (· * ·) Binary64.mul a.datum b.datum
  | divide => .quotient a.datum b.datum
  | concatenate => .concatenation a.datum b.datum

/-- How many arguments a function takes at least. -/
def Builtin.leastArguments : Builtin → Nat
  | max => 1
  | min => 1
  | now => 0
  | coalesce => 2
  | length => 1

/-- Whether a function takes so many arguments. -/
def Builtin.accepts (f : Builtin) (count : Nat) : Bool :=
  decide (f.leastArguments ≤ count) && (f != length || count == 1)

/-- The result of a function at a moment. -/
def Builtin.apply (moment : Binary64) (f : Builtin) (args : List Datum) : Datum :=
  match f with
  | max => .extreme (· == .lt) args
  | min => .extreme (· != .lt) args
  | now => .real moment
  | coalesce => (args.find? (!·.isNull)).getD .null
  | length => (args.headD .null).length

end LiveQuery
