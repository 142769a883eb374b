import LiveQuery.Text.Visible.Ranges

/-!
# Visible characters

A character is visible when it shows on its own: it is no control or formatting character, no
blank other than the space, no mark that combines with its neighbour, no letter that stands for
nothing, and it is assigned.

## Main definitions

* `Visible.isVisible`: the test.
-/

namespace LiveQuery.Visible

/-- Whether a character shows on its own. -/
def isVisible (c : Char) : Bool :=
  !hidden.any fun r => decide (r.1 ≤ c.toNat) && decide (c.toNat ≤ r.2)

end LiveQuery.Visible
