import LiveQuery.Text.Utf8
import LiveQuery.Value.Basic

/-!
# Hashing values

A hasher is fed with the storage class of a value and with its content, as bytes.  Words go in with
their low byte first, texts in UTF-8 with a byte behind them that occurs in no text, and blobs with
their length before them.

## Main definitions

* `wordBytes`: the bytes of a word.
* `Value.hashBytes`: what a hasher is fed with for a value.
-/

namespace LiveQuery

/-- The low bytes of a number, the lowest first. -/
def lowBytes : Nat → Nat → List UInt8
  | 0, _ => []
  | count + 1, n => .ofNat (n % 256) :: lowBytes count (n / 256)

/-- The bytes of a word, the lowest first. -/
def wordBytes (w : UInt64) : List UInt8 := lowBytes 8 w.toNat

namespace Value

/-- What a hasher is fed with for the content of a value. -/
def contentBytes : Value → List UInt8
  | null => []
  | integer i => wordBytes i.toUInt64
  | real x => wordBytes x.bits
  | text s => Utf8.encode s ++ [0xFF]
  | blob b => wordBytes (.ofNat b.length) ++ b

/-- What a hasher is fed with for a value. -/
def hashBytes (v : Value) : List UInt8 := .ofNat v.rank :: v.contentBytes

end Value

end LiveQuery
