/-!
# Column types

A column holds one of four storage classes.  Tables found in a database declare their columns
with free text, which is classified by the words that occur in it.

## Main definitions

* `DataType`: the four storage classes.
* `DataType.ofDeclared`: the storage class that a declaration stands for, if there is one.
-/

namespace LiveQuery

open Std

/-- The storage class of a column. -/
inductive DataType where
  | integer
  | real
  | text
  | blob
deriving DecidableEq, Repr, Inhabited

namespace DataType

/-- The keyword that declares the type. -/
def sqlName : DataType → String
  | integer => "INTEGER"
  | real => "REAL"
  | text => "TEXT"
  | blob => "BLOB"

/-- The name of the type in documents and descriptions. -/
def title : DataType → String
  | integer => "Integer"
  | real => "Real"
  | text => "Text"
  | blob => "Blob"

/-- Whether columns of the type hold numbers. -/
def isNumeric : DataType → Bool
  | integer => true
  | real => true
  | text => false
  | blob => false

/-- All types, in their order. -/
def all : List DataType := [integer, real, text, blob]

/-- The place of a type in the order of types. -/
def rank : DataType → Nat
  | integer => 0
  | real => 1
  | text => 2
  | blob => 3

instance : Ord DataType := ⟨compareOn rank⟩

instance : TransOrd DataType := inferInstanceAs (TransCmp (compareOn rank))

instance : LawfulEqOrd DataType where
  compare_self := ReflCmp.compare_self
  eq_of_compare {a b} h := by
    have h' : compare a.rank b.rank = .eq := h
    have hr : a.rank = b.rank := LawfulEqCmp.eq_of_compare h'
    cases a <;> cases b <;> simp_all [rank]

/-- Whether a word occurs in a text. -/
def occursIn (word : List Char) : List Char → Bool
  | [] => word.isEmpty
  | c :: rest => word.isPrefixOf (c :: rest) || occursIn word rest

/-- The words that mark a declaration as one of a type.  The first line with a word that occurs
decides. -/
def markers : List (DataType × List String) :=
  [(integer, ["INT"]),
   (text, ["CHAR", "CLOB", "TEXT"]),
   (blob, ["BLOB"]),
   (real, ["REAL", "FLOA", "DOUB"])]

/-- The storage class that a declared column type stands for.  Upper and lower case of ASCII
letters are not told apart.  A declaration without a marker stands for none. -/
def ofDeclared (declared : String) : Option DataType :=
  let letters := declared.toList.map Char.toUpper
  (markers.find? fun m => m.2.any fun word => occursIn word.toList letters).map (·.1)

/-- A type is found again in its own keyword. -/
@[simp] theorem ofDeclared_sqlName (t : DataType) : ofDeclared t.sqlName = some t := by
  cases t <;> decide

end DataType

end LiveQuery
