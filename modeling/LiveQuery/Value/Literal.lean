import LiveQuery.Binary64.Decimal
import LiveQuery.Text.Hex
import LiveQuery.Text.Quoted
import LiveQuery.Value.Basic

/-!
# Literals

The text that stands for a value inside a statement.  An infinity is written as a number too
great to be finite; a NaN has no literal and is written as null, which is also how it is stored.

## Main definitions

* `Value.literalChars`, `Value.literal`: the literal of a value.
-/

namespace LiveQuery

namespace Value

/-- The literal of a real. -/
def realLiteral (x : Binary64) : List Char :=
  if x.isNaN then "NULL".toList
  else if x.isInfinite then (if x.isNegative then "-1e999" else "1e999").toList
  else x.chars .exact

/-- The characters of the literal of a value. -/
def literalChars : Value → List Char
  | null => "NULL".toList
  | integer i => (toString i.toInt).toList
  | real x => realLiteral x
  | text s => Quoted.quote '\x27' s.toList
  | blob bytes => 'X' :: '\x27' :: (Hex.encode bytes ++ ['\x27'])

/-- The literal of a value. -/
def literal (v : Value) : String := String.ofList v.literalChars

end Value

end LiveQuery
