import LiveQuery.Field.Basic
import LiveQuery.Model.Request
import LiveQuery.Sorted.Map

/-!
# Result rows

A result row gives a value for every result name.  Its values are read as data of field types, by
the name of the result or by the term that was selected.

## Main definitions

* `Row`: a result row.
* `Row.get`, `Row.getTerm`: reading a result by its name, or by the term it was selected as.
-/

namespace LiveQuery

/-- A result row: values by result name. -/
abbrev Row : Type := SortedMap String Value

namespace Row

/-- Reads the result of a name. -/
def get (α : Type) [Field α] (row : Row) (name : String) : Except DecodeError α :=
  match SortedMap.get? row name with
  | some v => Field.decode v
  | none => .error (.missingColumn name)

/-- Reads the result of a term that was selected without a name. -/
def getTerm (α : Type) [Field α] {ι : Type} (m : Model ι) (root : ι) (row : Row) (t : Term) :
    Except DecodeError α :=
  match t.compile m root with
  | .ok e => row.get α e.text
  | .error err => .error (.invalidValue err.message)

end Row

end LiveQuery
