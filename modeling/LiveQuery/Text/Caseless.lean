/-!
# Text without case

Names of tables and columns are the same when they differ in nothing but the case of letters of
the basic Latin alphabet.  Other letters keep their case.

## Main definitions

* `Caseless.fold`: the form that texts of one spelling share.
* `Caseless.same`: whether two texts differ in case at most.

## Main results

* `Caseless.toLower_eq_iff`: only letters have another case.
-/

namespace LiveQuery.Caseless

/-- The text with capital letters of the basic Latin alphabet made small. -/
def fold (s : String) : String := String.ofList (s.toList.map Char.toLower)

/-- Whether two texts differ in case at most. -/
def same (s t : String) : Bool := fold s == fold t

theorem toList_fold (s : String) : (fold s).toList = s.toList.map Char.toLower := by
  simp [fold]

/-- Only letters have another case. -/
theorem toLower_eq_iff {c d : Char} (h : d.isAlpha = false) : c.toLower = d ↔ c = d := by
  have hbounds : ('A'.val.toNat = 65 ∧ 'Z'.val.toNat = 90) ∧
      'a'.val.toNat = 97 ∧ 'z'.val.toNat = 122 := by decide
  have hletter : (decide (d.val ≥ 'A'.val ∧ d.val ≤ 'Z'.val) ||
      (decide (d.val ≥ 'a'.val) && decide (d.val ≤ 'z'.val))) = false := h
  simp only [Bool.or_eq_false_iff, ge_iff_le, Bool.and_eq_false_iff, decide_eq_false_iff_not,
    UInt32.le_iff_toNat_le] at hletter
  by_cases hupper : c.val ≥ 'A'.val ∧ c.val ≤ 'Z'.val
  · have hval : c.toLower.val = c.val + ('a'.val - 'A'.val) := congrArg Char.val (dif_pos hupper)
    have hnat : c.toLower.val.toNat = (c.val.toNat + 32) % 2 ^ 32 := congrArg UInt32.toNat hval
    have hlow : 65 ≤ c.val.toNat := hupper.1
    have hhigh : c.val.toNat ≤ 90 := hupper.2
    refine iff_of_false ?_ ?_
    · rintro rfl
      omega
    · rintro rfl
      omega
  · rw [show c.toLower = c from dif_neg hupper]

end LiveQuery.Caseless
