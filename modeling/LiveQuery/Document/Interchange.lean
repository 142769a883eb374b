import LiveQuery.Document.Basic
import LiveQuery.Schema
import LiveQuery.Statement.Action

/-!
# Interchange forms

Values, expressions, queries, actions and schemas as documents, and the readers of these
documents.

A record is an object with a field for each part; a reader ignores other fields and also takes
the list of all parts in order.  A choice is an object whose single field is named for the
alternative and holds its content; an alternative without content is just its name, and a reader
also takes the object with null.  What may be absent is null, and a missing field counts as null
there.  A real that is not finite is null, and so does not read back.

## Main definitions

* `Interchange`: the class of data with a document form.
* Its instances for `Value`, `Expr`, `Query`, `Action` and `Schema`.
-/

namespace LiveQuery

/-- Data with a document form. -/
class Interchange (α : Type) where
  /-- The document of the data. -/
  toDocument : α → Document
  /-- The data of a document, if it has the right form. -/
  ofDocument? : Document → Option α

export Interchange (toDocument ofDocument?)

namespace Interchange

/-! ### Shapes -/

/-- An alternative with its content. -/
def choice (name : String) (content : Document) : Document := .object [(name, content)]

/-- Reads an alternative without content. -/
def ofName? {α : Type} (title : α → String) (all : List α) : Document → Option α
  | .text s => all.find? fun a => title a = s
  | .object [(s, .null)] => all.find? fun a => title a = s
  | _ => none

/-- The parts of a record with given field names, of which the last may be absent. -/
def parts? (required : List String) (optional : List String) : Document → Option (List Document)
  | .object fields =>
    let d := Document.object fields
    (required.mapM fun name => d.field? name).map fun parts =>
      parts ++ optional.map fun name => d.fieldOrNull name
  | .list items => if items.length = (required ++ optional).length then some items else none
  | _ => none

/-! ### Plain data -/

instance : Interchange String := ⟨.text, Document.asText?⟩

instance : Interchange Bool := ⟨.boolean, Document.asBoolean?⟩

instance : Interchange Int64 where
  toDocument i := .integer i.toInt
  ofDocument?
    | .integer i => narrow? i
    | _ => none

instance : Interchange UInt8 where
  toDocument b := .integer b.toNat
  ofDocument?
    | .integer i => if 0 ≤ i ∧ i < 256 then some (.ofNat i.toNat) else none
    | _ => none

/-- An integer is read as the nearest real. -/
instance : Interchange Binary64 where
  toDocument x := if x.isFinite then .real x else .null
  ofDocument?
    | .real x => some x
    | .integer i => some (.ofInt i)
    | _ => none

instance {α : Type} [Interchange α] : Interchange (List α) where
  toDocument l := .list (l.map toDocument)
  ofDocument?
    | .list items => items.mapM ofDocument?
    | _ => none

instance {α : Type} [Interchange α] : Interchange (Option α) where
  toDocument
    | some a => toDocument a
    | none => .null
  ofDocument?
    | .null => some none
    | d => (ofDocument? d).map some

instance {α : Type} [Interchange α] : Interchange (SortedMap String α) where
  toDocument m := .object (m.toList.map fun e => (e.1, toDocument e.2))
  ofDocument?
    | .object fields =>
      (fields.mapM fun f => (ofDocument? f.2).map fun a => (f.1, a)).map .ofList
    | _ => none

/-! ### Values -/

/-- The document of a value. -/
def valueDocument : Value → Document
  | .null => .text "Null"
  | .integer i => choice "Integer" (toDocument i)
  | .real x => choice "Real" (toDocument x)
  | .text s => choice "Text" (toDocument s)
  | .blob b => choice "Blob" (toDocument b)

/-- The value of a document. -/
def valueOf? : Document → Option Value
  | .text "Null" => some .null
  | .object [("Null", .null)] => some .null
  | .object [("Integer", d)] => (ofDocument? d).map .integer
  | .object [("Real", d)] => (ofDocument? d).map .real
  | .object [("Text", d)] => (ofDocument? d).map .text
  | .object [("Blob", d)] => (ofDocument? d).map .blob
  | _ => none

instance : Interchange Value := ⟨valueDocument, valueOf?⟩

/-! ### Expressions -/

instance : Interchange UnaryOp := ⟨fun op => .text op.title, ofName? UnaryOp.title UnaryOp.all⟩
instance : Interchange BinaryOp := ⟨fun op => .text op.title, ofName? BinaryOp.title BinaryOp.all⟩
instance : Interchange Builtin := ⟨fun f => .text f.title, ofName? Builtin.title Builtin.all⟩

instance : Interchange Column where
  toDocument c := .object [("table", .text c.table), ("name", .text c.name)]
  ofDocument? d := do
    let [table, name] ← parts? ["table", "name"] [] d | none
    return ⟨← ofDocument? table, ← ofDocument? name⟩

mutual

/-- The document of an expression. -/
def exprDocument : Expr → Document
  | .value v => choice "Value" (toDocument v)
  | .column c => choice "Column" (toDocument c)
  | .unary op e => choice "Unary" (.list [toDocument op, exprDocument e])
  | .binary op l r => choice "Binary" (.list [toDocument op, exprDocument l, exprDocument r])
  | .call f args => choice "Function" (.list [toDocument f, .list (exprDocuments args)])
  | .join source target inner =>
    choice "Join" (.list [toDocument source, toDocument target, exprDocument inner])

/-- The documents of some expressions. -/
def exprDocuments : List Expr → List Document
  | [] => []
  | e :: es => exprDocument e :: exprDocuments es

end

mutual

/-- The expression of a document. -/
def exprOf? : Document → Option Expr
  | .object [("Value", d)] => (ofDocument? d).map .value
  | .object [("Column", d)] => (ofDocument? d).map .column
  | .object [("Unary", .list [op, d])] => do
    return .unary (← ofDocument? op) (← exprOf? d)
  | .object [("Binary", .list [op, l, r])] => do
    return .binary (← ofDocument? op) (← exprOf? l) (← exprOf? r)
  | .object [("Function", .list [f, .list args])] => do
    return .call (← ofDocument? f) (← exprsOf? args)
  | .object [("Join", .list [source, target, d])] => do
    return .join (← ofDocument? source) (← ofDocument? target) (← exprOf? d)
  | _ => none
termination_by structural d => d

/-- The expressions of some documents. -/
def exprsOf? : List Document → Option (List Expr)
  | [] => some []
  | d :: ds => do return (← exprOf? d) :: (← exprsOf? ds)
termination_by structural ds => ds

end

instance : Interchange Expr := ⟨exprDocument, exprOf?⟩

/-! ### Queries -/

/-- The name of a direction in documents. -/
def directionTitle : Direction → String
  | .ascending => "Ascending"
  | .descending => "Descending"

instance : Interchange Direction :=
  ⟨fun d => .text (directionTitle d), ofName? directionTitle [.ascending, .descending]⟩

instance : Interchange SortKey where
  toDocument k := .object [("expression", toDocument k.expr), ("direction", toDocument k.direction)]
  ofDocument? d := do
    let [expr, direction] ← parts? ["expression", "direction"] [] d | none
    return ⟨← ofDocument? expr, ← ofDocument? direction⟩

instance : Interchange ResultColumn where
  toDocument r := .object [("expression", toDocument r.expr), ("alias", toDocument r.label)]
  ofDocument? d := do
    let [expr, label] ← parts? ["expression"] ["alias"] d | none
    return ⟨← ofDocument? expr, ← ofDocument? label⟩

instance : Interchange Query where
  toDocument q := .object [("results", toDocument q.results),
    ("predicates", toDocument q.predicates), ("order", toDocument q.order)]
  ofDocument? d := do
    let [results, predicates, order] ← parts? ["results", "predicates", "order"] [] d | none
    return ⟨← ofDocument? results, ← ofDocument? predicates, ← ofDocument? order⟩

/-! ### Actions -/

/-- The document of an action. -/
def actionDocument : Action → Document
  | .insert table values =>
    choice "Insert" (.object [("table", toDocument table), ("values", toDocument values)])
  | .update table values predicate =>
    choice "Update" (.object [("table", toDocument table), ("values", toDocument values),
      ("predicate", toDocument predicate)])
  | .delete table predicate =>
    choice "Delete" (.object [("table", toDocument table), ("predicate", toDocument predicate)])

/-- The action of a document. -/
def actionOf? : Document → Option Action
  | .object [("Insert", d)] => do
    let [table, values] ← parts? ["table", "values"] [] d | none
    return .insert (← ofDocument? table) (← ofDocument? values)
  | .object [("Update", d)] => do
    let [table, values, predicate] ← parts? ["table", "values"] ["predicate"] d | none
    return .update (← ofDocument? table) (← ofDocument? values) (← ofDocument? predicate)
  | .object [("Delete", d)] => do
    let [table, predicate] ← parts? ["table"] ["predicate"] d | none
    return .delete (← ofDocument? table) (← ofDocument? predicate)
  | _ => none

instance : Interchange Action := ⟨actionDocument, actionOf?⟩

/-! ### Schemas -/

instance : Interchange DataType := ⟨fun t => .text t.title, ofName? DataType.title DataType.all⟩

instance : Interchange ColumnDef where
  toDocument c := .object [("name", toDocument c.name), ("data_type", toDocument c.dataType),
    ("nullable", toDocument c.nullable), ("primary_key", toDocument c.primaryKey)]
  ofDocument? d := do
    let [name, dataType, nullable, primaryKey] ←
      parts? ["name", "data_type", "nullable", "primary_key"] [] d | none
    return ⟨← ofDocument? name, ← ofDocument? dataType, ← ofDocument? nullable,
      ← ofDocument? primaryKey⟩

/-- The columns are read as they stand: whether they form a sound schema is not checked. -/
instance : Interchange Schema where
  toDocument s := .object [("table", toDocument s.table),
    ("columns", toDocument s.columns.toList)]
  ofDocument? d := do
    let [table, columns] ← parts? ["table", "columns"] [] d | none
    return ⟨← ofDocument? table, .ofList (← ofDocument? columns)⟩

end Interchange

end LiveQuery
