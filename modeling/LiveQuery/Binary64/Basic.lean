/-!
# Binary64 numbers

Reals are the 64-bit binary floating point numbers, given by their words.  Equality is equality
of words: the two zeros differ, and so do two NaNs with different payloads.

Every finite number is a whole multiple of `2 ^ -1074`, the least positive one.  Arithmetic is
therefore integer arithmetic on these multiples, followed by one rounding.

## Main definitions

* `Binary64`: a number, given by its word.
* `Binary64.multiple`: a finite number as a multiple of `2 ^ -1074`.
* `Binary64.roundRatio`: the word of the number nearest to a ratio, a tie going to the even word.
* `Binary64.add`, `Binary64.sub`, `Binary64.mul`, `Binary64.div`: correctly rounded arithmetic.
* `Binary64.orderKey`: the total order on words as an order of integers.
-/

namespace LiveQuery

/-- A binary floating point number of 64 bits, given by its word. -/
structure Binary64 where
  /-- Sign bit, 11 exponent bits and 52 fraction bits. -/
  bits : UInt64
deriving DecidableEq, Inhabited, Repr

namespace Binary64

/-! ### The parts of a word -/

/-- The weight of the sign bit, `2 ^ 63`. -/
def signWeight : Nat := 0x8000000000000000

/-- The weight of the lowest exponent bit, `2 ^ 52`. -/
def exponentUnit : Nat := 0x10000000000000

/-- The word without its sign bit. -/
def magnitude (x : Binary64) : Nat := x.bits.toNat % signWeight

/-- Whether the sign bit is set; `-0.0` is negative. -/
def isNegative (x : Binary64) : Bool := decide (signWeight ≤ x.bits.toNat)

/-- The magnitude of the infinities.  Greater magnitudes belong to the NaNs. -/
def infiniteMagnitude : Nat := 2047 * exponentUnit

/-- Whether the number is a NaN. -/
def isNaN (x : Binary64) : Bool := decide (infiniteMagnitude < x.magnitude)

/-- Whether the number is one of the two infinities. -/
def isInfinite (x : Binary64) : Bool := decide (x.magnitude = infiniteMagnitude)

/-- Whether the number is neither infinite nor a NaN. -/
def isFinite (x : Binary64) : Bool := decide (x.magnitude < infiniteMagnitude)

/-- Whether the number is one of the two zeros. -/
def isZero (x : Binary64) : Bool := decide (x.magnitude = 0)

/-- The number with a given sign and magnitude. -/
def ofMagnitude (negative : Bool) (magnitude : Nat) : Binary64 :=
  ⟨.ofNat ((if negative then signWeight else 0) + magnitude)⟩

/-- The infinity of a given sign. -/
def infinity (negative : Bool) : Binary64 := ofMagnitude negative infiniteMagnitude

/-- The quiet NaN with an empty payload, the result of undefined arithmetic. -/
def nan : Binary64 := ofMagnitude false (infiniteMagnitude + exponentUnit / 2)

/-! ### Finite numbers as multiples of the least positive one

With exponent field `e` and fraction `f`, the number is `f * 2 ^ -1074` when `e = 0` and
`(2 ^ 52 + f) * 2 ^ (e - 1) * 2 ^ -1074` otherwise.
-/

/-- The significand, an integer below `2 ^ 53`. -/
def significand (magnitude : Nat) : Nat :=
  if magnitude < exponentUnit then magnitude else exponentUnit + magnitude % exponentUnit

/-- The exponent `k` such that the number is `significand * 2 ^ k * 2 ^ -1074`. -/
def scale (magnitude : Nat) : Nat := magnitude / exponentUnit - 1

/-- How many times `2 ^ -1074` goes into a finite number, the sign left aside. -/
def unsignedMultiple (x : Binary64) : Nat := significand x.magnitude * Nat.pow 2 (scale x.magnitude)

/-- How many times `2 ^ -1074` goes into a finite number. -/
def multiple (x : Binary64) : Int :=
  if x.isNegative then -(x.unsignedMultiple : Int) else x.unsignedMultiple

/-- The number of least positive numbers in `1`. -/
def one : Nat := Nat.pow 2 1074

theorem one_pos : 0 < one := by decide +kernel

/-! ### Rounding -/

/-- The integer nearest to `num / den`, a tie going to the even one. -/
def nearestEven (num den : Nat) : Nat :=
  let floor := num / den
  let rest := 2 * (num % den)
  if rest < den then floor
  else if den < rest then floor + 1
  else if floor % 2 = 0 then floor else floor + 1

/-- The magnitude of the number nearest to `num / den`, a tie going to the even word.  With
`2 ^ k` the least step that leaves at most 53 bits of the ratio, the rounded count of steps `m`
and `k` make up the word `k * 2 ^ 52 + m`: a count of `2 ^ 53` carries into the exponent. -/
def roundRatio (num den : Nat) : Nat :=
  let scaled := num * one
  let k := (scaled / den).log2 - 52
  min (k * exponentUnit + nearestEven scaled (den * Nat.pow 2 k)) infiniteMagnitude

/-- The number nearest to `num / den`.  The sign of a zero is that of `negative`. -/
def ofRatio (negative : Bool) (num den : Nat) : Binary64 :=
  ofMagnitude negative (roundRatio num den)

/-- The number nearest to an integer ratio; a zero ratio gives `0.0`. -/
def ofSignedRatio (num : Int) (den : Nat) : Binary64 := ofRatio (num < 0) num.natAbs den

/-- The number nearest to an integer. -/
def ofInt (i : Int) : Binary64 := ofSignedRatio i 1

/-- The number nearest to `digits * 10 ^ exponent`. -/
def ofDecimal (negative : Bool) (digits : Nat) (exponent : Int) : Binary64 :=
  match exponent with
  | .ofNat e => ofRatio negative (digits * Nat.pow 10 e) 1
  | .negSucc e => ofRatio negative digits (Nat.pow 10 (e + 1))

/-! ### Order -/

/-- The place of a word in the total order: negative NaNs, then the numbers by value with `-0.0`
before `0.0`, then the other NaNs. -/
def orderKey (x : Binary64) : Int :=
  if x.isNegative then -(x.magnitude : Int) - 1 else x.magnitude

instance : Ord Binary64 := ⟨fun x y => compare x.orderKey y.orderKey⟩

/-! ### Arithmetic -/

/-- The number of the opposite sign. -/
def neg (x : Binary64) : Binary64 := ofMagnitude (!x.isNegative) x.magnitude

/-- The sum.  An exact zero is `-0.0` only as the sum of two negative zeros. -/
def add (x y : Binary64) : Binary64 :=
  if x.isNaN then x
  else if y.isNaN then y
  else if x.isInfinite then
    if y.isInfinite && x.isNegative != y.isNegative then nan else x
  else if y.isInfinite then y
  else if x.isZero && y.isZero then ofMagnitude (x.isNegative && y.isNegative) 0
  else ofSignedRatio (x.multiple + y.multiple) one

/-- The difference. -/
def sub (x y : Binary64) : Binary64 := x.add (if y.isNaN then y else y.neg)

/-- The product. -/
def mul (x y : Binary64) : Binary64 :=
  let negative := x.isNegative != y.isNegative
  if x.isNaN then x
  else if y.isNaN then y
  else if x.isInfinite || y.isInfinite then
    if x.isZero || y.isZero then nan else infinity negative
  else ofRatio negative (x.unsignedMultiple * y.unsignedMultiple) (one * one)

/-- The quotient. -/
def div (x y : Binary64) : Binary64 :=
  let negative := x.isNegative != y.isNegative
  if x.isNaN then x
  else if y.isNaN then y
  else if x.isInfinite then
    if y.isInfinite then nan else infinity negative
  else if y.isInfinite then ofMagnitude negative 0
  else if y.isZero then
    if x.isZero then nan else infinity negative
  else ofRatio negative x.unsignedMultiple y.unsignedMultiple

/-! ### Integers -/

/-- The integer nearest to a finite number, a half going away from zero. -/
def roundAway (x : Binary64) : Int :=
  let n : Nat := (2 * x.unsignedMultiple + one) / (2 * one)
  if x.isNegative then -(n : Int) else n

/-- The integer that a finite number is, if it is one. -/
def toInt? (x : Binary64) : Option Int :=
  if x.isFinite ∧ x.unsignedMultiple % one = 0 then some (x.multiple / one) else none

end Binary64

end LiveQuery
