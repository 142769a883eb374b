import LiveQuery.Expr.Basic
import LiveQuery.Binary64.Decimal
import LiveQuery.Sorted.Map
import LiveQuery.Sorted.Set
import LiveQuery.Text.Visible

/-!
# Structural descriptions

A description shows how data are built: constructors with their arguments, records with their
fields, texts in quotes.  Messages about tables and schemas contain such descriptions.

## Main definitions

* `Inspect`: the class of data with a description.
* `Inspect.call`, `Inspect.record`, `Inspect.list`, `Inspect.braces`: the shapes.
-/

namespace LiveQuery

/-- Data with a structural description. -/
class Inspect (α : Type) where
  /-- The description. -/
  inspect : α → String

export Inspect (inspect)

namespace Inspect

/-! ### Shapes -/

/-- A constructor applied to arguments. -/
def call (name : String) (args : List String) : String :=
  name ++ "(" ++ ", ".intercalate args ++ ")"

/-- A record with its fields. -/
def record (name : String) (fields : List (String × String)) : String :=
  name ++ " \x7b " ++ ", ".intercalate (fields.map fun f => f.1 ++ ": " ++ f.2) ++ " \x7d"

/-- Items between brackets. -/
def list (items : List String) : String := "[" ++ ", ".intercalate items ++ "]"

/-- Items between braces. -/
def braces (items : List String) : String := "\x7b" ++ ", ".intercalate items ++ "\x7d"

/-! ### Texts and numbers -/

/-- A character inside the quotes of a text. -/
def escape (c : Char) : List Char :=
  match c with
  | '"' => ['\\', '"']
  | '\\' => ['\\', '\\']
  | '\t' => ['\\', 't']
  | '\n' => ['\\', 'n']
  | '\r' => ['\\', 'r']
  | '\x00' => ['\\', '0']
  | c =>
    if Visible.isVisible c then [c]
    else '\\' :: 'u' :: '\x7b' :: (Nat.toDigits 16 c.toNat ++ ['\x7d'])

instance : Inspect String where
  inspect s := String.ofList ('"' :: (s.toList.flatMap escape ++ ['"']))

instance : Inspect Bool := ⟨fun b => if b then "true" else "false"⟩
instance : Inspect Nat := ⟨toString⟩
instance : Inspect Int64 := ⟨fun i => toString i.toInt⟩
instance : Inspect Binary64 := ⟨Binary64.text .exact⟩

/-! ### Containers -/

instance {α : Type} [Inspect α] : Inspect (Option α) where
  inspect
    | some a => call "Some" [inspect a]
    | none => "None"

instance {ε α : Type} [Inspect ε] [Inspect α] : Inspect (Except ε α) where
  inspect
    | .ok a => call "Ok" [inspect a]
    | .error e => call "Err" [inspect e]

instance {α : Type} [Inspect α] : Inspect (List α) := ⟨fun l => list (l.map inspect)⟩

instance {α : Type} [Ord α] [Inspect α] : Inspect (SortedSet α) :=
  ⟨fun s => braces (s.toList.map inspect)⟩

instance {κ α : Type} [Ord κ] [Inspect κ] [Inspect α] : Inspect (SortedMap κ α) :=
  ⟨fun m => braces (m.toList.map fun e => inspect e.1 ++ ": " ++ inspect e.2)⟩

/-! ### Values and expressions -/

instance : Inspect DataType := ⟨DataType.title⟩

/-- Blobs are described by their size. -/
instance : Inspect Value where
  inspect
    | .null => "Null"
    | .integer i => call "Integer" [inspect i]
    | .real x => call "Real" [inspect x]
    | .text s => call "Text" [inspect s]
    | .blob b => call "Blob" [inspect b.length ++ " bytes"]

instance : Inspect Column where
  inspect c := record "Column" [("table", inspect c.table), ("name", inspect c.name)]

instance : Inspect UnaryOp := ⟨UnaryOp.title⟩
instance : Inspect BinaryOp := ⟨BinaryOp.title⟩
instance : Inspect Builtin := ⟨Builtin.title⟩

mutual

/-- The description of an expression. -/
def inspectExpr : Expr → String
  | .value v => call "Value" [inspect v]
  | .column c => call "Column" [inspect c]
  | .unary op e => call "Unary" [inspect op, inspectExpr e]
  | .binary op l r => call "Binary" [inspect op, inspectExpr l, inspectExpr r]
  | .call f args => call "Function" [inspect f, list (inspectExprs args)]
  | .join source target inner => call "Join" [inspect source, inspect target, inspectExpr inner]

/-- The descriptions of some expressions. -/
def inspectExprs : List Expr → List String
  | [] => []
  | e :: es => inspectExpr e :: inspectExprs es

end

instance : Inspect Expr := ⟨inspectExpr⟩

end Inspect

end LiveQuery
