import LiveQuery.Binary64.Basic

/-!
# Documents

The interchange form of values, expressions and statements: trees of numbers, texts, lists and
objects, as in JSON.  Integers and reals are kept apart, and reals keep the sign of zero.

## Main definitions

* `Document`: the trees.
* `Document.field?`: the value of an object's field, the last one of its name.
-/

namespace LiveQuery

/-- A tree of plain data. -/
inductive Document where
  | null
  | boolean (b : Bool)
  /-- An integer, written without point or exponent. -/
  | integer (i : Int)
  /-- A real. -/
  | real (x : Binary64)
  | text (s : String)
  | list (items : List Document)
  /-- Named fields, in order. -/
  | object (fields : List (String × Document))
deriving Inhabited, Repr

namespace Document

/-- The value of the last field of a name, if the document is an object with one. -/
def field? (name : String) : Document → Option Document
  | object fields => fields.reverse.lookup name
  | _ => none

/-- The value of a field, a missing one counting as null. -/
def fieldOrNull (name : String) (d : Document) : Document := (d.field? name).getD null

/-- Whether the document is null. -/
def isNull : Document → Bool
  | null => true
  | _ => false

/-- The text that the document is. -/
def asText? : Document → Option String
  | text s => some s
  | _ => none

/-- The truth value that the document is. -/
def asBoolean? : Document → Option Bool
  | boolean b => some b
  | _ => none

/-- The integer that the document is. -/
def asInteger? : Document → Option Int
  | integer i => some i
  | _ => none

/-- The items of the list that the document is. -/
def asList? : Document → Option (List Document)
  | list items => some items
  | _ => none

end Document

end LiveQuery
