import LiveQuery.Binary64.Extended

/-!
# Numerals in text

A text can stand for the number that it begins with: after blanks and a sign, digits with at most
one point among them, and perhaps an exponent.  A letter `e` without digits behind it does not
belong to the number.  A text that begins with no digits stands for zero.

## Main definitions

* `Numeral`: the numeral at the beginning of a text.
* `Numeral.read`: finds it.
* `Numeral.toReal`, `Numeral.toInt?`: its value.
-/

namespace LiveQuery

/-- The numeral at the beginning of a text. -/
structure Numeral where
  /-- Whether it has a minus sign. -/
  negative : Bool
  /-- The digits before the point. -/
  whole : List Char
  /-- The digits after the point, if there is a point. -/
  fraction? : Option (List Char)
  /-- The exponent, if there is one. -/
  exponent? : Option Int
  /-- Whether nothing but blanks follows it. -/
  ended : Bool
deriving DecidableEq, Repr

namespace Numeral

/-! ### Reading -/

/-- Whether a character is a blank: the space, or one of the five controls from the tabulator to
the carriage return. -/
def isBlank (c : Char) : Bool := c == ' ' || (decide ('\t' ≤ c) && decide (c ≤ '\r'))

/-- Reads a sign, which may be missing. -/
def readSign : List Char → Bool × List Char
  | '-' :: rest => (true, rest)
  | '+' :: rest => (false, rest)
  | rest => (false, rest)

/-- The number that a digit denotes. -/
def digit (c : Char) : Nat := c.toNat - 48

/-- Numbers are written with digits. -/
theorem isDigit_toDigits {n : Nat} : ∀ c ∈ Nat.toDigits 10 n, c.isDigit = true :=
  fun _ hc => Nat.isDigit_of_mem_toDigits (by decide) (by decide) hc

/-- The number with given decimal digits. -/
def ofDigits (digits : List Char) : Nat := digits.foldl (fun n c => n * 10 + digit c) 0

/-- The size of an exponent that is too great for further digits to matter. -/
def greatExponent : Nat := 10000

/-- The size of an exponent with given digits.  Every number but zero is infinite or rounds to zero
by a great one. -/
def exponentSize (digits : List Char) : Nat :=
  digits.foldl (fun n c => if n < greatExponent then n * 10 + digit c else greatExponent) 0

/-- Reads an exponent, if there is one. -/
def readExponent? : List Char → Option (Int × List Char)
  | [] => none
  | c :: rest =>
    if c = 'e' ∨ c = 'E' then
      let (negative, rest) := readSign rest
      let digits := rest.takeWhile Char.isDigit
      let size := exponentSize digits
      if digits.isEmpty then none
      else some (if negative then -(size : Int) else size, rest.dropWhile Char.isDigit)
    else none

/-- Reads a point with the digits after it, if there is one. -/
def readFraction? : List Char → Option (List Char × List Char)
  | '.' :: rest => some (rest.takeWhile Char.isDigit, rest.dropWhile Char.isDigit)
  | _ => none

/-- The numeral at the beginning of a text, which may be without digits. -/
def read (text : List Char) : Numeral :=
  let (negative, rest) := readSign (text.dropWhile isBlank)
  let whole := rest.takeWhile Char.isDigit
  let rest := rest.dropWhile Char.isDigit
  let fraction := readFraction? rest
  let rest := (fraction.map (·.2)).getD rest
  let power := readExponent? rest
  let rest := (power.map (·.2)).getD rest
  { negative, whole
    fraction? := fraction.map (·.1)
    exponent? := power.map (·.1)
    ended := rest.all isBlank }

/-- Whether there are no digits before the exponent. -/
def isEmpty (n : Numeral) : Bool := n.whole.isEmpty && (n.fraction?.getD []).isEmpty

/-- Whether there is neither a point nor an exponent. -/
def isIntegral (n : Numeral) : Bool := n.fraction?.isNone && n.exponent?.isNone

/-- Whether a text that begins with the numeral is a number throughout. -/
def isWhole (n : Numeral) : Bool := n.ended && !n.isEmpty

/-! ### Values -/

/-- The integer that an integral numeral denotes; zero if there are no digits. -/
def toInt? (n : Numeral) : Option Int :=
  if n.isEmpty then some 0
  else if n.isIntegral then
    some (if n.negative then -(ofDigits n.whole : Int) else ofDigits n.whole)
  else none

/-- The greatest word of 64 bits. -/
def greatestWord : Nat := 0xFFFFFFFFFFFFFFFF

/-- Appends digits to a number as long as any further one is sure to fit in 64 bits.  The rest of
the digits is left over. -/
def gather : Nat → List Char → Nat × List Char
  | n, [] => (n, [])
  | n, c :: rest =>
    if n < (greatestWord - 9) / 10 then gather (n * 10 + digit c) rest else (n, c :: rest)

/-- Multiplies a number by ten as long as the product is sure to fit in 64 bits, at most `count`
times, and gives the power of ten that is left. -/
def raise : Nat → Nat → Nat × Nat
  | 0, n => (n, 0)
  | count + 1, n => if n < greatestWord / 10 then raise count (n * 10) else (n, count + 1)

/-- Divides a number by ten as long as it is a multiple of it, at most `count` times, and gives the
power of ten that is left. -/
def lower : Nat → Nat → Nat × Nat
  | 0, n => (n, 0)
  | count + 1, n => if n % 10 = 0 then lower count (n / 10) else (n, count + 1)

/-- The positive real `n * 10 ^ power`, as near as the engine comes to it. -/
def scaledReal (negative : Bool) (n : Nat) (power : Int) : Binary64 :=
  let (n, power) :=
    match power with
    | .ofNat count => let (n, left) := raise count n; (n, (left : Int))
    | .negSucc count => let (n, left) := lower (count + 1) n; (n, -(left : Int))
  if power = 0 then .ofRatio negative n 1
  else ((Extended.ofNat n).shift power).toReal negative

/-- The real that the engine takes the numeral for.  Only the digits that fit in 64 bits count. -/
def toReal (n : Numeral) : Binary64 :=
  let (digits, surplus) := gather 0 n.whole
  let fraction := n.fraction?.getD []
  let (digits, unread) := gather digits fraction
  let moved : Int := surplus.length - (fraction.length - unread.length : Nat)
  if digits = 0 then .ofMagnitude n.negative 0
  else scaledReal n.negative digits (n.exponent?.getD 0 + moved)

end Numeral

end LiveQuery
