import LiveQuery.Binary64.Basic

/-!
# Moments in time

A moment is a whole number of microseconds since the epoch.  It is stored as a real number of
seconds, which is exact enough to give the microseconds back.

## Main definitions

* `Timestamp`: a moment, with the supported range as proof fields.
* `Timestamp.seconds`: the stored real.
* `Timestamp.ofSeconds?`: the moment nearest to a stored real, if it is in range.
-/

namespace LiveQuery

/-- A moment: whole microseconds since the epoch, within the supported calendar. -/
structure Timestamp where
  /-- Microseconds since the epoch. -/
  micros : Int
  /-- The first moment supported. -/
  least_le : -8334601228800000000 ≤ micros := by decide
  /-- The last moment supported. -/
  le_greatest : micros ≤ 8210266876799999999 := by decide
deriving DecidableEq

namespace Timestamp

/-- The moment at a number of microseconds, if it is supported. -/
def ofMicros? (micros : Int) : Option Timestamp :=
  if h : -8334601228800000000 ≤ micros ∧ micros ≤ 8210266876799999999 then
    some ⟨micros, h.1, h.2⟩
  else none

/-- The number of microseconds in a second. -/
def million : Binary64 := .ofInt 1000000

/-- The seconds since the epoch, as stored. -/
def seconds (t : Timestamp) : Binary64 := (Binary64.ofInt t.micros).div million

/-- The nearest integer of 64 bits, a half going away from zero.  A NaN counts as zero, and what
is out of range as the nearest bound. -/
def clamp (x : Binary64) : Int :=
  if x.isNaN then 0
  else if x.isInfinite then (if x.isNegative then -0x8000000000000000 else 0x7FFFFFFFFFFFFFFF)
  else max (-0x8000000000000000) (min 0x7FFFFFFFFFFFFFFF x.roundAway)

/-- The moment nearest to a stored number of seconds, if it is supported. -/
def ofSeconds? (seconds : Binary64) : Option Timestamp := ofMicros? (clamp (seconds.mul million))

end Timestamp

end LiveQuery
