import LiveQuery.Binary64.Basic
import LiveQuery.Value.DataType

/-!
# Values

A value is what one cell of a table holds.  Values of different storage classes are never equal:
the integer `1` and the real `1.0` are two values.

## Main definitions

* `Value`: null, integers of 64 bits, reals, texts and blobs.
* `narrow?`: the integer of 64 bits that an integer is.
* `Value.compare`: the total order, by storage class and then by content.  Texts are ordered by
  code points, blobs by bytes, reals by the total order on words.
-/

namespace LiveQuery

/-- The integer of 64 bits that an integer is, if it is in their range. -/
def narrow? (i : Int) : Option Int64 :=
  if -0x8000000000000000 ≤ i ∧ i < 0x8000000000000000 then some (.ofInt i) else none

theorem narrow?_toInt (i : Int64) : narrow? i.toInt = some i := by
  have hlow : -0x8000000000000000 ≤ i.toInt := i.le_toInt
  have hhigh : i.toInt < 0x8000000000000000 := i.toInt_lt
  rw [narrow?, if_pos ⟨hlow, hhigh⟩, Int64.ofInt_toInt]

/-- What one cell of a table holds. -/
inductive Value where
  | null
  | integer (i : Int64)
  | real (x : Binary64)
  | text (s : String)
  | blob (bytes : List UInt8)
deriving DecidableEq, Inhabited, Repr

namespace Value

/-- Whether the value is null. -/
def isNull : Value → Bool
  | null => true
  | _ => false

/-- The name of the storage class. -/
def className : Value → String
  | null => "null"
  | integer _ => "integer"
  | real _ => "real"
  | text _ => "text"
  | blob _ => "blob"

/-- The type of the columns that a value belongs in; null belongs in none in particular. -/
def dataType? : Value → Option DataType
  | null => none
  | integer _ => some .integer
  | real _ => some .real
  | text _ => some .text
  | blob _ => some .blob

/-- The integer that the value is. -/
def asInteger? : Value → Option Int64
  | integer i => some i
  | _ => none

/-- The real that the value is. -/
def asReal? : Value → Option Binary64
  | real x => some x
  | _ => none

/-- The text that the value is. -/
def asText? : Value → Option String
  | text s => some s
  | _ => none

/-- The blob that the value is. -/
def asBlob? : Value → Option (List UInt8)
  | blob b => some b
  | _ => none

/-! ### Order -/

/-- The place of the storage class in the order of values. -/
def rank : Value → Nat
  | null => 0
  | integer _ => 1
  | real _ => 2
  | text _ => 3
  | blob _ => 4

/-- The total order of values: by storage class, then by content. -/
protected def compare : Value → Value → Ordering
  | integer i, integer j => Ord.compare i j
  | real x, real y => Ord.compare x y
  | text s, text t => Ord.compare s t
  | blob b, blob c => Ord.compare b c
  | a, b => Ord.compare a.rank b.rank

instance : Ord Value := ⟨Value.compare⟩

end Value

end LiveQuery
