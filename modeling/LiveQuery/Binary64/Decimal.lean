import LiveQuery.Binary64.Extended

/-!
# Decimal text of a binary64 number

The text of a real has the fewest significant digits that read back as the same number.  For one
digit, two digits and so on the two neighbours of the number on that decimal grid are tried; the
first grid with a hit wins, and of two hits the nearer one, a tie going away from zero.

The engine's own text of a real has fifteen significant digits instead, less those at the end that
are zeros.

## Main definitions

* `Decimal`: an unsigned decimal, digits and a power of ten.
* `Binary64.shortest`: the shortest decimal that reads back as a finite number.
* `Binary64.rounded`: the engine's decimal with a number of digits.
* `RealStyle`: how a decimal is laid out; `RealStyle.exact`, `RealStyle.plain` and
  `RealStyle.stored` are the layouts in use.
* `Binary64.text`: the shortest text of a number in a style.
* `Binary64.storedText`: the engine's text of a number.
-/

namespace LiveQuery

/-! ### Decimals -/

/-- The decimal `digits * 10 ^ exponent`. -/
structure Decimal where
  /-- The digits, as one number. -/
  digits : Nat
  /-- The power of ten of the last digit. -/
  exponent : Int
deriving DecidableEq, Repr

namespace Decimal

/-- The digit characters without trailing zeros. -/
def significant (d : Decimal) : List Char :=
  ((Nat.toDigits 10 d.digits).reverse.dropWhile (· == '0')).reverse

/-- The power of ten of the first digit. -/
def leading (d : Decimal) : Int := (Nat.toDigits 10 d.digits).length - 1 + d.exponent

end Decimal

namespace Binary64

/-! ### The shortest decimal -/

/-- The unsigned value of a finite number as a ratio to `10 ^ exponent`. -/
def ratioAt (x : Binary64) (exponent : Int) : Nat × Nat :=
  match exponent with
  | .ofNat e => (x.unsignedMultiple, one * Nat.pow 10 e)
  | .negSucc e => (x.unsignedMultiple * Nat.pow 10 (e + 1), one)

/-- Whether the unsigned decimal `digits * 10 ^ exponent` reads back as the number, its sign left
aside. -/
def reads (x : Binary64) (digits : Nat) (exponent : Int) : Bool :=
  (ofDecimal false digits exponent).magnitude == x.magnitude

/-- The multiple of `10 ^ exponent` that reads back as the number: one of its two neighbours on
this grid, the nearer one if both do, the greater one on a tie. -/
def readsAt (x : Binary64) (exponent : Int) : Option Nat :=
  let (num, den) := x.ratioAt exponent
  let below := num / den
  match x.reads below exponent, x.reads (below + 1) exponent with
  | true, true => some (if 2 * (num % den) < den then below else below + 1)
  | true, false => some below
  | false, true => some (below + 1)
  | false, false => none

/-- The number of decimal digits of a positive integer, and `0` for zero. -/
def digitCount (n : Nat) : Nat := if n = 0 then 0 else (Nat.toDigits 10 n).length

/-- The power of ten of the first digit of a finite number that is not zero. -/
def leading (x : Binary64) : Int :=
  let whole := x.unsignedMultiple / one
  if whole = 0 then -(digitCount ((one - 1) / x.unsignedMultiple) : Int)
  else digitCount whole - 1

/-- The exact decimal value of a finite number, its sign left aside. -/
def exactDecimal (x : Binary64) : Decimal := ⟨x.unsignedMultiple * Nat.pow 5 1074, -1074⟩

/-- The decimal with the fewest digits that reads back as a finite number, its sign left aside.
Seventeen digits always suffice. -/
def shortest (x : Binary64) : Decimal :=
  ((List.range 17).findSome? fun (i : Nat) =>
    let exponent := x.leading - i
    (x.readsAt exponent).map fun digits => ⟨digits, exponent⟩).getD x.exactDecimal

/-! ### Rounded decimals -/

/-- The engine's decimal with a number of significant digits for a finite number other than zero,
its sign left aside: eighteen or nineteen digits of the number, cut off and then rounded, a half
going up. -/
def rounded (count : Nat) (x : Binary64) : Decimal :=
  let (a, moved) := (Extended.ofReal x).normalized
  let digits := a.floor
  let surplus := digitCount digits - count
  let unit := Nat.pow 10 surplus
  ⟨(2 * digits + unit) / (2 * unit), surplus - moved⟩

end Binary64

/-! ### Layout -/

/-- How the digits of a real are laid out. -/
structure RealStyle where
  /-- For which powers of ten of the first digit the text has no exponent. -/
  positional : Int → Bool
  /-- What follows the digits of an integral number written without exponent. -/
  integralEnd : String
  /-- What follows the only digit before an exponent. -/
  digitEnd : String
  /-- The text of an exponent. -/
  exponentText : Int → List Char

namespace RealStyle

/-- Text that can be told from an integer: without exponent from `1e-4` to below `1e16`, and then
with a point and at least one digit after it. -/
def exact : RealStyle :=
  ⟨fun e => decide (-5 < e) && decide (e < 16), ".0", "", fun e => (toString e).toList⟩

/-- Text that never has an exponent and shows a point only before a fraction. -/
def plain : RealStyle := ⟨fun _ => true, "", "", fun e => (toString e).toList⟩

/-- A sign and at least two digits. -/
def signedExponent (e : Int) : List Char :=
  let digits := Nat.toDigits 10 e.natAbs
  (if e < 0 then '-' else '+') :: (List.replicate (2 - digits.length) '0' ++ digits)

/-- Text with a point and at least one digit after it, without exponent from `1e-4` to below
`1e15`. -/
def stored : RealStyle :=
  ⟨fun e => decide (-5 < e) && decide (e < 15), ".0", ".0", signedExponent⟩

/-- Lays out a positive decimal. -/
def layout (style : RealStyle) (d : Decimal) : List Char :=
  let digits := d.significant
  let e := d.leading
  if style.positional e then
    if e < 0 then '0' :: '.' :: (List.replicate (-e - 1).toNat '0' ++ digits)
    else
      let whole := e.toNat + 1
      if digits.length ≤ whole then
        digits ++ List.replicate (whole - digits.length) '0' ++ style.integralEnd.toList
      else digits.take whole ++ '.' :: digits.drop whole
  else
    let mantissa := match digits with
      | first :: second :: rest => first :: '.' :: second :: rest
      | short => short ++ style.digitEnd.toList
    mantissa ++ 'e' :: style.exponentText e

end RealStyle

namespace Binary64

/-- The text of a number. -/
def chars (style : RealStyle) (x : Binary64) : List Char :=
  if x.isNaN then ['N', 'a', 'N']
  else
    let sign := if x.isNegative then ['-'] else []
    if x.isInfinite then sign ++ ['i', 'n', 'f']
    else if x.isZero then sign ++ '0' :: style.integralEnd.toList
    else sign ++ style.layout x.shortest

/-- The text of a number. -/
def text (style : RealStyle) (x : Binary64) : String := String.ofList (x.chars style)

/-- The engine's text of a number other than a NaN.  Both zeros have the same one. -/
def storedText (x : Binary64) : String :=
  if x.isZero then "0.0"
  else
    let sign := if x.isNegative then ['-'] else []
    String.ofList (sign ++ if x.isInfinite then ['I', 'n', 'f'] else
      RealStyle.stored.layout (x.rounded 15))

end Binary64

end LiveQuery
