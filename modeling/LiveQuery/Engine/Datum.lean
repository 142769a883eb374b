import LiveQuery.Binary64.Decimal
import LiveQuery.Text.Numeral
import LiveQuery.Text.Utf8
import LiveQuery.Value.Basic

/-!
# Data of the engine

The engine holds what values hold, but its texts are bytes, which need not be well-formed: text can
be put together from blobs.  There is no undefined real among its data; it is null.

A datum can be taken for a number or for a text.  Columns take what they store for what they are
declared to hold, as far as that loses nothing.

## Main definitions

* `Datum`: the type.
* `Datum.ofValue`, `Datum.toValue`: between values and data.
* `Datum.compare`: the order in which the engine compares and sorts.
* `Datum.integer?`, `Datum.nearestReal`, `Datum.truth`, `Datum.textBytes?`: a datum as integer,
  real, truth value and text.
* `Datum.numeric`, `Datum.textual`, `Datum.stored`: the forms in which columns hold data.
-/

namespace LiveQuery

/-- What the engine holds in a cell or computes. -/
inductive Datum where
  | null
  | integer (i : Int64)
  | real (x : Binary64)
  | text (bytes : List UInt8)
  | blob (bytes : List UInt8)
deriving DecidableEq, Inhabited, Repr

namespace Datum

/-! ### Values -/

/-- A real; what is undefined is null. -/
def ofReal (x : Binary64) : Datum := if x.isNaN then null else real x

/-- The datum that a value is handed over as. -/
def ofValue : Value → Datum
  | .null => null
  | .integer i => integer i
  | .real x => ofReal x
  | .text s => text (Utf8.encode s)
  | .blob b => blob b

/-- The value that a datum is read as. -/
def toValue : Datum → Value
  | null => .null
  | integer i => .integer i
  | real x => .real x
  | text b => .text (Utf8.decode b)
  | blob b => .blob b

/-- Whether the datum is null. -/
def isNull : Datum → Bool
  | null => true
  | _ => false

/-! ### Order -/

/-- The place of a kind of data in the engine's order, which counts all numbers as one kind. -/
def kindRank : Datum → Nat
  | null => 0
  | integer _ => 1
  | real _ => 1
  | text _ => 2
  | blob _ => 3

/-- The engine's order: null first, then numbers by size, then texts and then blobs by bytes. -/
protected def compare : Datum → Datum → Ordering
  | integer i, integer j => Ord.compare i j
  | real x, real y => Ord.compare x.multiple y.multiple
  | integer i, real y => Ord.compare (i.toInt * Binary64.one) y.multiple
  | real x, integer j => Ord.compare x.multiple (j.toInt * Binary64.one)
  | text s, text t => Ord.compare s t
  | blob b, blob c => Ord.compare b c
  | a, b => Ord.compare a.kindRank b.kindRank

/-! ### Numbers -/

/-- The numeral with which bytes begin as a text. -/
def numeral (bytes : List UInt8) : Numeral := .read (bytes.map fun b => Char.ofNat b.toNat)

/-- The integer that a numeral denotes, if it has 64 bits. -/
def ofNumeral? (n : Numeral) : Option Int64 := n.toInt?.bind narrow?

/-- The integer that an operand of arithmetic stands for, if it stands for one. -/
def integer? : Datum → Option Int64
  | null => none
  | integer i => some i
  | real _ => none
  | text b => ofNumeral? (numeral b)
  | blob b => ofNumeral? (numeral b)

/-- The real that an operand of arithmetic stands for. -/
def nearestReal : Datum → Binary64
  | null => .ofInt 0
  | integer i => .ofInt i.toInt
  | real x => x
  | text b => (numeral b).toReal
  | blob b => (numeral b).toReal

/-- The truth of a datum: whether its number differs from zero.  That of null is unknown. -/
def truth (d : Datum) : Option Bool := if d.isNull then none else some !d.nearestReal.isZero

/-- A truth value as a datum. -/
def ofTruth : Option Bool → Datum
  | none => null
  | some b => integer (if b then 1 else 0)

/-! ### Texts -/

/-- The bytes of the text that a datum stands for. -/
def textBytes? : Datum → Option (List UInt8)
  | null => none
  | integer i => some (Utf8.encode (toString i.toInt))
  | real x => some (Utf8.encode x.storedText)
  | text b => some b
  | blob b => some b

/-- The number of characters in a text up to the first one with code zero.  A byte that can only
continue a character does so behind a byte that begins one of several bytes, and counts as a
character elsewhere; `within` says whether such a byte came before. -/
def countCharacters (within : Bool) : List UInt8 → Nat
  | [] => 0
  | b :: rest =>
    if b = 0 then 0
    else if within && decide (0x80 ≤ b) && decide (b < 0xC0) then countCharacters within rest
    else countCharacters (decide (0xC0 ≤ b)) rest + 1

/-- The length of a datum: the bytes of a blob, and otherwise the characters of its text. -/
def length : Datum → Datum
  | null => null
  | blob b => integer (.ofNat b.length)
  | d => integer (.ofNat (countCharacters false (d.textBytes?.getD [])))

/-! ### Stored forms -/

/-- A text that is a numeral throughout becomes a number: an integer if the numeral denotes one of
64 bits, and a real otherwise.  All else stays. -/
def numeric : Datum → Datum
  | text b =>
    let n := numeral b
    if n.isWhole then
      match ofNumeral? n with
      | some i => integer i
      | none => real n.toReal
    else text b
  | d => d

/-- A number becomes its text; all else stays. -/
def textual : Datum → Datum
  | integer i => text (Utf8.encode (toString i.toInt))
  | real x => text (Utf8.encode x.storedText)
  | d => d

/-- An integral real becomes an integer, if it lies strictly between the least and the greatest
one; all else stays. -/
def integral : Datum → Datum
  | real x =>
    match x.toInt? with
    | some i =>
      if -0x8000000000000000 < i ∧ i < 0x7FFFFFFFFFFFFFFF then integer (.ofInt i) else real x
    | none => real x
  | d => d

/-- The form in which a column of a type holds a datum.  A real column takes integral reals for
integers on the way, so it holds no negative zero. -/
def stored (type : DataType) (d : Datum) : Datum :=
  match type with
  | .integer => d.numeric.integral
  | .real =>
    match d.numeric.integral with
    | integer i => real (.ofInt i.toInt)
    | d => d
  | .text => d.textual
  | .blob => d

end Datum

end LiveQuery
