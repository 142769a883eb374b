import LiveQuery.Binary64.Basic

/-!
# Positive numbers with a significand of 64 bits

The engine converts between decimals and reals with a few multiplications by powers of ten, each
rounded to a significand of 64 bits.  So a conversion is off by a last digit now and then, and its
result depends on the order of the multiplications.

The exponent is unbounded here: whatever a bound would cut off is infinite or zero as a real.

## Main definitions

* `Extended`: the numbers.
* `Extended.mul`: the rounded product.
* `Extended.powerOfTen`: the nearest number to a power of ten.
* `Extended.shift`: a number with its decimal point moved.
* `Extended.toReal`: the nearest real.
-/

namespace LiveQuery

/-- The number `significand * 2 ^ exponent`. -/
structure Extended where
  /-- The significand. -/
  significand : Nat
  /-- The power of two. -/
  exponent : Int
deriving DecidableEq, Repr

namespace Extended

/-- The number of bits in a significand. -/
def width : Nat := 64

/-- The number nearest to `n * 2 ^ exponent`, a tie going to the even significand. -/
def nearest (n : Nat) (exponent : Int) : Extended :=
  let excess := n.log2 + 1 - width
  ⟨Binary64.nearestEven n (Nat.pow 2 excess), exponent + excess⟩

/-- An integer. -/
def ofNat (n : Nat) : Extended := nearest n 0

/-- The absolute value of a finite real. -/
def ofReal (x : Binary64) : Extended := nearest x.unsignedMultiple (-1074)

/-- The product. -/
def mul (a b : Extended) : Extended :=
  nearest (a.significand * b.significand) (a.exponent + b.exponent)

/-- Whether a number is less than or equal to another. -/
def le (a b : Extended) : Bool :=
  let least := min a.exponent b.exponent
  decide (a.significand * Nat.pow 2 (a.exponent - least).toNat ≤
    b.significand * Nat.pow 2 (b.exponent - least).toNat)

/-- The number nearest to a power of ten. -/
def powerOfTen (power : Int) : Extended :=
  let n := Nat.pow 10 power.natAbs
  if 0 ≤ power then ofNat n
  else
    -- `n` has a bit more than its logarithm says, and no fraction `2 ^ k / n` is a power of two
    let k := n.log2 + width
    ⟨Binary64.nearestEven (Nat.pow 2 k) n, -(k : Int)⟩

/-- The number multiplied so often by the same one. -/
def mulRepeated (factor : Extended) : Nat → Extended → Extended
  | 0, a => a
  | count + 1, a => mulRepeated factor count (a.mul factor)

/-- The number multiplied by a power of ten: by hundreds of digits, then by tens, then by single
ones. -/
def shift (power : Int) (a : Extended) : Extended :=
  let factor := fun step => powerOfTen (if 0 ≤ power then step else -step)
  let count := power.natAbs
  mulRepeated (factor 1) (count % 10)
    (mulRepeated (factor 10) (count % 100 / 10) (mulRepeated (factor 100) (count / 100) a))

/-- The greatest finite real. -/
def greatestReal : Extended := ofReal (.ofMagnitude false (Binary64.infiniteMagnitude - 1))

/-- The nearest real; all that is above the greatest one is infinite. -/
def toReal (negative : Bool) (a : Extended) : Binary64 :=
  if a.le greatestReal then
    match a.exponent with
    | .ofNat e => .ofRatio negative (a.significand * Nat.pow 2 e) 1
    | .negSucc e => .ofRatio negative a.significand (Nat.pow 2 (e + 1))
  else .infinity negative

/-- The integral part. -/
def floor (a : Extended) : Nat :=
  match a.exponent with
  | .ofNat e => a.significand * Nat.pow 2 e
  | .negSucc e => a.significand / Nat.pow 2 (e + 1)

/-! ### Decimals -/

/-- Moves the decimal point of a number by a power of ten as often as a test holds, but no more
than `fuel` times.  The sum of these powers goes along with the number. -/
def moveWhile (test : Extended → Bool) (power : Int) : Nat → Extended × Int → Extended × Int
  | 0, moved => moved
  | fuel + 1, (a, sum) =>
    if test a then moveWhile test power fuel (a.mul (powerOfTen power), sum + power)
    else (a, sum)

/-- How often the decimal point of a real has to be moved at most by powers of one kind. -/
def greatestMoves : Nat := 40

/-- The number with its decimal point moved until it lies between `1e17` and `1e19`, and by which
power of ten it was moved. -/
def normalized (a : Extended) : Extended × Int :=
  let great := fun power a => (powerOfTen power).le a
  let small := fun power a => !(powerOfTen power).le a
  let move := fun test power => moveWhile test power greatestMoves
  if great 19 a then
    move (great 19) (-1) (move (great 29) (-10) (move (great 119) (-100) (a, 0)))
  else move (small 17) 1 (move (small 7) 10 (move (small (-97)) 100 (a, 0)))

end Extended

end LiveQuery
