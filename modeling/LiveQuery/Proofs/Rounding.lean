import LiveQuery.Proofs.Decimals
import Mathlib.Algebra.Order.Field.Basic
import Mathlib.Algebra.Order.Ring.Rat
import Mathlib.Data.Nat.Cast.Order.Field
import Mathlib.Tactic.FieldSimp
import Mathlib.Tactic.Linarith
import Mathlib.Tactic.Positivity
import Mathlib.Tactic.Ring

/-!
# The error of one rounding

A ratio below `2 ^ e` is rounded by at most `2 ^ e / 2 ^ 54`: the nearest number has 53 significant
bits, so it is at most half a unit of the last of them away.  Integers, products and quotients are
rounded ratios, so the bound holds of them as well.  A bound says nothing about which of two
neighbours is taken.  Where that matters the binade has to be known, and then rounding takes the
nearest integer of a ratio that is doubled often enough.

## Main definitions

* `Binary64.step`: the exponent that rounding a ratio leaves.
* `Binary64.size`: the absolute value of a finite number, as a rational.
* `Binary64.Approximates`: a number of a given sign, near a rational.

## Main results

* `Binary64.abs_nearestEven_sub_le`: the nearest integer is at most a half away.
* `Binary64.abs_size_ofRatio_sub_le`: how far the number nearest to a ratio is from it.
* `Binary64.size_ofRatio_of_binade`: which number that is, once the binade is known.
* `Binary64.size_ofInt`: integers below `2 ^ 53` are not rounded.
* `Binary64.approximates_mul`, `Binary64.approximates_div`: the error of one operation.
* `Binary64.natAbs_roundAway_eq_iff`: the nearest integer, a half going away from zero.
-/

namespace LiveQuery

namespace Binary64

variable {num den c k e : Nat} {x y : Binary64} {negative : Bool}

/-! ### The nearest integer -/

/-- The nearest integer is the one below unless the rest is a half or more.  A tie goes to the even
integer. -/
theorem nearestEven_cases (num : Nat) (hden : 0 < den) :
    ∃ floor rest, num = floor * den + rest ∧ rest < den ∧
      (nearestEven num den = floor ∧ 2 * rest ≤ den ∧ (2 * rest = den → floor % 2 = 0) ∨
        nearestEven num den = floor + 1 ∧ den ≤ 2 * rest ∧ (2 * rest = den → floor % 2 = 1)) := by
  refine ⟨num / den, num % den, (Nat.div_add_mod' num den).symm, Nat.mod_lt _ hden, ?_⟩
  unfold nearestEven
  dsimp only
  split_ifs <;> omega

/-- The nearest integer is at most a half away. -/
theorem abs_nearestEven_sub_le (num : Nat) (hden : 0 < den) :
    |(nearestEven num den : ℚ) - num / den| ≤ 1 / 2 := by
  have hden' : (0 : ℚ) < den := by exact_mod_cast hden
  obtain ⟨floor, rest, hnum, hrest, ⟨hround, hhalf, -⟩ | ⟨hround, hhalf, -⟩⟩ :=
    nearestEven_cases num hden
  · have hhalf' : 2 * (rest : ℚ) ≤ den := by exact_mod_cast hhalf
    have hdiff : (nearestEven num den : ℚ) - num / den = -(rest / den) := by
      rw [hround, hnum]
      push_cast
      field_simp
      ring
    rw [hdiff, abs_neg, abs_of_nonneg (by positivity), div_le_iff₀ hden']
    linarith
  · have hhalf' : (den : ℚ) ≤ 2 * rest := by exact_mod_cast hhalf
    have hrest' : (rest : ℚ) < den := by exact_mod_cast hrest
    have hdiff : (nearestEven num den : ℚ) - num / den = (den - rest) / den := by
      rw [hround, hnum]
      push_cast
      field_simp
      ring
    rw [hdiff, abs_of_nonneg (div_nonneg (by linarith) hden'.le), div_le_iff₀ hden']
    linarith

/-- An integer less than a half away is the nearest one. -/
theorem nearestEven_eq_of_abs_sub_lt (hden : 0 < den) (h : |(num : ℚ) / den - c| < 1 / 2) :
    nearestEven num den = c := by
  have hnear := abs_le.mp (abs_nearestEven_sub_le num hden)
  have hclose := abs_lt.mp h
  have hbelow : (nearestEven num den : ℚ) < c + 1 := by linarith [hnear.2, hclose.2]
  have habove : (c : ℚ) < nearestEven num den + 1 := by linarith [hnear.1, hclose.1]
  have hbelow' : nearestEven num den < c + 1 := by exact_mod_cast hbelow
  have habove' : c < nearestEven num den + 1 := by exact_mod_cast habove
  omega

/-- A tie goes to an even integer. -/
theorem nearestEven_le_iff_of_even (num : Nat) (hden : 0 < den) (hc : c % 2 = 0) :
    nearestEven num den ≤ c ↔ (num : ℚ) / den ≤ c + 1 / 2 := by
  have hden' : (0 : ℚ) < den := by exact_mod_cast hden
  have hcast : 2 * num ≤ (2 * c + 1) * den ↔ (2 * num : ℚ) ≤ (2 * c + 1) * den := by
    exact_mod_cast Iff.rfl
  have hhalf : (num : ℚ) / den ≤ c + 1 / 2 ↔ 2 * num ≤ (2 * c + 1) * den := by
    rw [div_le_iff₀ hden', hcast]
    constructor <;> intro h <;> linarith
  rw [hhalf]
  obtain ⟨floor, rest, rfl, hrest, hcases⟩ := nearestEven_cases num hden
  obtain hlt | rfl | hgt := Nat.lt_trichotomy floor c
  · have hmul : (floor + 1) * den ≤ c * den := Nat.mul_le_mul_right den hlt
    refine iff_of_true (by omega) ?_
    linarith
  · have hcmp : 2 * (floor * den + rest) ≤ (2 * floor + 1) * den ↔ 2 * rest ≤ den := by
      constructor <;> intro h <;> linarith
    omega
  · have hmul : (c + 1) * den ≤ floor * den := Nat.mul_le_mul_right den hgt
    refine iff_of_false (by omega) ?_
    rw [Nat.not_le]
    linarith

/-- A ratio that is not below an integer is not rounded below it. -/
theorem le_nearestEven (hden : 0 < den) (h : c * den ≤ num) : c ≤ nearestEven num den := by
  obtain ⟨floor, rest, rfl, hrest, hcases⟩ := nearestEven_cases num hden
  have hfloor : c < floor + 1 := by
    refine Nat.lt_of_mul_lt_mul_right (a := den) ?_
    linarith
  omega

/-- A ratio below an integer is not rounded above it. -/
theorem nearestEven_le (hden : 0 < den) (h : num < c * den) : nearestEven num den ≤ c := by
  obtain ⟨floor, rest, rfl, hrest, hcases⟩ := nearestEven_cases num hden
  have hfloor : floor < c := by
    refine Nat.lt_of_mul_lt_mul_right (a := den) ?_
    linarith
  omega

theorem natCast_le_div_iff (hden : 0 < den) : (c : ℚ) ≤ num / den ↔ c * den ≤ num := by
  have hden' : (0 : ℚ) < den := by exact_mod_cast hden
  rw [le_div_iff₀ hden']
  exact_mod_cast Iff.rfl

theorem div_lt_natCast_iff (hden : 0 < den) : (num : ℚ) / den < c ↔ num < c * den := by
  have hden' : (0 : ℚ) < den := by exact_mod_cast hden
  rw [div_lt_iff₀ hden']
  exact_mod_cast Iff.rfl

/-! ### Words from their parts -/

theorem isNegative_ofMagnitude (h : c < signWeight) :
    (ofMagnitude negative c).isNegative = negative := by
  have hlt : (if negative then signWeight else 0) + c < 2 ^ 64 := by
    have hweight : 2 * signWeight = 2 ^ 64 := rfl
    split_ifs <;> omega
  rw [isNegative, ofMagnitude, UInt64.toNat_ofNat_of_lt' hlt]
  cases negative with
  | true => exact decide_eq_true (Nat.le_add_right _ _)
  | false => exact decide_eq_false (by simpa using h)

/-- How many times `2 ^ -1074` goes into a finite number of a magnitude. -/
def multipleOf (magnitude : Nat) : Nat := significand magnitude * Nat.pow 2 (scale magnitude)

/-- What a number with a given exponent field and fraction is a multiple of. -/
theorem multipleOf_normal {field rest : Nat} (hrest : rest < exponentUnit) :
    multipleOf ((field + 1) * exponentUnit + rest) = (exponentUnit + rest) * Nat.pow 2 field := by
  have hunit : 0 < exponentUnit := by decide
  have hge : ¬ (field + 1) * exponentUnit + rest < exponentUnit := by
    rw [Nat.succ_mul]
    omega
  have hmod : ((field + 1) * exponentUnit + rest) % exponentUnit = rest := by
    rw [Nat.mul_add_mod_of_lt hrest]
  have hdiv : ((field + 1) * exponentUnit + rest) / exponentUnit = field + 1 := by
    rw [Nat.mul_comm, Nat.mul_add_div hunit, Nat.div_eq_of_lt hrest, Nat.add_zero]
  rw [multipleOf, significand, if_neg hge, scale, hmod, hdiv, Nat.add_sub_cancel]

/-- A count of steps and the exponent of a step make up a magnitude, also if the count carries into
the exponent. -/
theorem multipleOf_steps {q : Nat} (hk : k = 0 ∨ exponentUnit ≤ q) (hq : q ≤ 2 * exponentUnit) :
    multipleOf (k * exponentUnit + q) = q * Nat.pow 2 k := by
  have hunit : 0 < exponentUnit := by decide
  obtain hsmall | hnormal := Nat.lt_or_ge q exponentUnit
  · obtain rfl : k = 0 := by omega
    rw [Nat.zero_mul, Nat.zero_add, multipleOf, significand, if_pos hsmall, scale,
      Nat.div_eq_of_lt hsmall]
  obtain hlt | hcarry := Nat.lt_or_ge q (2 * exponentUnit)
  · have hword : k * exponentUnit + q = (k + 1) * exponentUnit + (q - exponentUnit) := by
      rw [Nat.succ_mul]
      omega
    rw [hword, multipleOf_normal (by omega), Nat.add_sub_cancel' hnormal]
  · -- A count of `2 ^ 53` steps is the first number of the next binade.
    have hword : k * exponentUnit + q = (k + 1 + 1) * exponentUnit + 0 := by
      rw [Nat.succ_mul, Nat.succ_mul]
      omega
    obtain rfl : q = 2 * exponentUnit := by omega
    rw [hword, multipleOf_normal hunit, Nat.pow_eq, Nat.pow_eq, Nat.pow_succ]
    ring

/-- A count of steps and the exponent of a step make up a word. -/
theorem unsignedMultiple_ofMagnitude {q : Nat} (hk : k = 0 ∨ exponentUnit ≤ q)
    (hq : q ≤ 2 * exponentUnit) (hfinite : k * exponentUnit + q < infiniteMagnitude) :
    (ofMagnitude negative (k * exponentUnit + q)).unsignedMultiple = q * Nat.pow 2 k := by
  rw [unsignedMultiple, magnitude_ofMagnitude (hfinite.trans (by decide))]
  exact multipleOf_steps hk hq

/-! ### Rounded ratios -/

theorem pow_add_eq_mul_one (e : Nat) : 2 ^ (e + 1074) = Nat.pow 2 e * one := by
  have hpow (n : Nat) (hn : Nat.pow 2 n = one) : 2 ^ (e + n) = Nat.pow 2 e * one := by
    rw [← hn]
    exact Nat.pow_add 2 e n
  have hadd := hpow _ pow_eq_one
  exact hadd

theorem exists_one_eq_mul (hk : k ≤ 1074) : ∃ j, one = Nat.pow 2 j * Nat.pow 2 k := by
  have hpow (n : Nat) (hn : Nat.pow 2 n = one) (hle : k ≤ n) :
      ∃ j, one = Nat.pow 2 j * Nat.pow 2 k := by
    refine ⟨n - k, ?_⟩
    rw [← hn]
    exact (congrArg (Nat.pow 2) (Nat.sub_add_cancel hle).symm).trans (Nat.pow_add 2 _ k)
  have hsplit := hpow _ pow_eq_one
  exact hsplit hk

/-- The exponent that rounding a ratio leaves: the least one with at most 53 bits before the
point. -/
def step (num den : Nat) : Nat := (num * one / den).log2 - 52

theorem lt_pow_step (num : Nat) (hden : 0 < den) :
    num * one < 2 * exponentUnit * (den * Nat.pow 2 (step num den)) := by
  have hlt : num * one / den < 2 ^ ((num * one / den).log2 + 1) := Nat.lt_log2_self
  have hle : (num * one / den).log2 + 1 ≤ 53 + step num den := by
    rw [step]
    omega
  have hpow : 2 ^ ((num * one / den).log2 + 1) ≤ 2 ^ (53 + step num den) :=
    Nat.pow_le_pow_right (by decide) hle
  have hmul := (Nat.div_lt_iff_lt_mul hden).mp (hlt.trans_le hpow)
  have hunit : 2 ^ 53 = 2 * exponentUnit := rfl
  rw [Nat.pow_add, hunit, Nat.mul_assoc, Nat.mul_comm _ den] at hmul
  exact hmul

theorem pow_step_le (h : step num den ≠ 0) :
    exponentUnit * (den * Nat.pow 2 (step num den)) ≤ num * one := by
  have hne : num * one / den ≠ 0 := by
    intro hzero
    rw [step, hzero] at h
    exact h rfl
  have hle : 2 ^ (num * one / den).log2 ≤ num * one / den := Nat.log2_self_le hne
  have hlog : (num * one / den).log2 = 52 + step num den := by
    rw [step] at h ⊢
    omega
  have hunit : 2 ^ 52 = exponentUnit := rfl
  rw [hlog, Nat.pow_add, hunit] at hle
  have hmul : exponentUnit * 2 ^ step num den * den ≤ num * one :=
    (Nat.mul_le_mul_right den hle).trans (Nat.div_mul_le_self _ _)
  rw [Nat.mul_assoc, Nat.mul_comm _ den] at hmul
  exact hmul

/-- A ratio below `2 ^ e` has at most `1074 + e` bits before the point. -/
theorem step_le (h : num < den * Nat.pow 2 e) : step num den ≤ 1021 + e := by
  by_cases hzero : num * one / den = 0
  · rw [step, hzero]
    exact Nat.zero_le _
  have hpow : num * one / den < 2 ^ (e + 1074) := by
    rw [pow_add_eq_mul_one]
    refine Nat.div_lt_of_lt_mul ?_
    rw [← Nat.mul_assoc]
    exact Nat.mul_lt_mul_of_pos_right h one_pos
  have hlog := (Nat.log2_lt hzero).mpr hpow
  rw [step]
  omega

/-- A ratio below `2 ^ 1023` is rounded without overflow. -/
theorem roundRatio_eq (hden : 0 < den) (h : num < den * Nat.pow 2 e) (he : e ≤ 1023) :
    ∃ q, q = nearestEven (num * one) (den * Nat.pow 2 (step num den)) ∧
      (step num den = 0 ∨ exponentUnit ≤ q) ∧ q ≤ 2 * exponentUnit ∧
      step num den * exponentUnit + q < infiniteMagnitude ∧
      roundRatio num den = step num den * exponentUnit + q := by
  have hgrid : 0 < den * Nat.pow 2 (step num den) := Nat.mul_pos hden (Nat.two_pow_pos _)
  have hhigh := nearestEven_le hgrid (lt_pow_step num hden)
  have hstep : step num den * exponentUnit ≤ 2044 * exponentUnit :=
    Nat.mul_le_mul_right _ ((step_le h).trans (by omega))
  have hlt : step num den * exponentUnit +
      nearestEven (num * one) (den * Nat.pow 2 (step num den)) < infiniteMagnitude := by
    have hunit : 0 < exponentUnit := by decide
    rw [infiniteMagnitude]
    omega
  refine ⟨_, rfl, ?_, hhigh, hlt, ?_⟩
  · by_cases hzero : step num den = 0
    · exact .inl hzero
    · exact .inr (le_nearestEven hgrid (pow_step_le hzero))
  · exact Nat.min_eq_left hlt.le

/-! ### Sizes -/

/-- The absolute value of a finite number. -/
def size (x : Binary64) : ℚ := x.unsignedMultiple / one

theorem one_cast_pos : (0 : ℚ) < one := by exact_mod_cast one_pos

/-- Half a unit of the last bit that rounding keeps. -/
theorem pow_step_div_le (h : num < den * Nat.pow 2 e) :
    1 / 2 * ((2 : ℚ) ^ step num den / one) ≤ 2 ^ e / 2 ^ 54 := by
  have hpow : Nat.pow 2 (step num den) * Nat.pow 2 54 ≤ Nat.pow 2 e * (2 * one) := by
    have hstep := step_le h
    calc Nat.pow 2 (step num den) * Nat.pow 2 54
        = 2 ^ (step num den + 54) := (Nat.pow_add 2 _ 54).symm
      _ ≤ 2 ^ (e + 1 + 1074) := Nat.pow_le_pow_right (by decide) (by omega)
      _ = Nat.pow 2 e * (2 * one) := by
        rw [pow_add_eq_mul_one, Nat.pow_eq, Nat.pow_eq, Nat.pow_succ, Nat.mul_assoc]
  have hcast : (2 : ℚ) ^ step num den * 2 ^ 54 ≤ 2 ^ e * (2 * one) := by exact_mod_cast hpow
  rw [← mul_div_assoc, div_le_div_iff₀ one_cast_pos (by positivity)]
  linarith

section Ratio

variable (negative) (hden : 0 < den) (h : num < den * Nat.pow 2 e) (he : e ≤ 1023)

include hden h he

theorem isFinite_ofRatio : (ofRatio negative num den).isFinite = true := by
  obtain ⟨q, -, -, -, hlt, hround⟩ := roundRatio_eq hden h he
  rw [isFinite, ofRatio, hround, magnitude_ofMagnitude (hlt.trans (by decide)),
    decide_eq_true hlt]

theorem isNegative_ofRatio : (ofRatio negative num den).isNegative = negative := by
  obtain ⟨q, -, -, -, hlt, hround⟩ := roundRatio_eq hden h he
  rw [ofRatio, hround, isNegative_ofMagnitude (hlt.trans (by decide))]

theorem size_ofRatio :
    (ofRatio negative num den).size =
      nearestEven (num * one) (den * Nat.pow 2 (step num den)) * 2 ^ step num den / one := by
  obtain ⟨q, rfl, hnormal, hhigh, hlt, hround⟩ := roundRatio_eq hden h he
  rw [size, ofRatio, hround, unsignedMultiple_ofMagnitude hnormal hhigh hlt, Nat.cast_mul,
    Nat.pow_eq, Nat.cast_pow, Nat.cast_ofNat]

/-- **A ratio below `2 ^ e` is rounded by at most `2 ^ e / 2 ^ 54`.** -/
theorem abs_size_ofRatio_sub_le :
    |(ofRatio negative num den).size - num / den| ≤ 2 ^ e / 2 ^ 54 := by
  have hone := one_cast_pos
  have hden' : (0 : ℚ) < den := by exact_mod_cast hden
  have hgrid : 0 < den * Nat.pow 2 (step num den) := Nat.mul_pos hden (Nat.two_pow_pos _)
  have hnear := abs_nearestEven_sub_le (num * one) hgrid
  have hscale : (0 : ℚ) ≤ 2 ^ step num den / one := div_nonneg (by positivity) hone.le
  have hdiff : (ofRatio negative num den).size - num / den =
      (nearestEven (num * one) (den * Nat.pow 2 (step num den)) -
        (num * one : ℕ) / (den * Nat.pow 2 (step num den) : ℕ)) *
        (2 ^ step num den / one) := by
    rw [size_ofRatio negative hden h he]
    push_cast [Nat.pow_eq]
    generalize (one : ℚ) = unit at hone
    field_simp
  calc |(ofRatio negative num den).size - num / den|
      ≤ 1 / 2 * (2 ^ step num den / one) := by
        rw [hdiff, abs_mul, abs_of_nonneg hscale]
        exact mul_le_mul_of_nonneg_right hnear hscale
    _ ≤ 2 ^ e / 2 ^ 54 := pow_step_div_le h

end Ratio

/-- A ratio that has 53 bits before the point once it is doubled `j` times is rounded to the nearest
integer then. -/
theorem size_ofRatio_of_binade {j : Nat} (hj : j ≤ 1074) (hden : 0 < den)
    (hlow : exponentUnit * den ≤ num * Nat.pow 2 j)
    (hhigh : num * Nat.pow 2 j < 2 * exponentUnit * den) :
    (ofRatio negative num den).size = nearestEven (num * Nat.pow 2 j) den / 2 ^ j := by
  obtain ⟨k, hone⟩ := exists_one_eq_mul hj
  have hk : 0 < Nat.pow 2 k := Nat.two_pow_pos k
  have hscaled : num * one = num * Nat.pow 2 j * Nat.pow 2 k := by
    rw [hone, Nat.mul_comm (Nat.pow 2 k), Nat.mul_assoc]
  have hle : exponentUnit * Nat.pow 2 k ≤ num * one / den := by
    rw [Nat.le_div_iff_mul_le hden, hscaled, Nat.mul_right_comm]
    exact Nat.mul_le_mul_right _ hlow
  have hlt : num * one / den < 2 * exponentUnit * Nat.pow 2 k := by
    rw [Nat.div_lt_iff_lt_mul hden, hscaled, Nat.mul_right_comm (2 * exponentUnit)]
    exact Nat.mul_lt_mul_of_pos_right hhigh hk
  have hstep : step num den = k := by
    have hunit : 0 < exponentUnit := by decide
    have hne : num * one / den ≠ 0 := ((Nat.mul_pos hunit hk).trans_le hle).ne'
    have hlog : (num * one / den).log2 = 52 + k := by
      rw [Nat.log2_eq_iff hne]
      refine ⟨(Nat.pow_add 2 52 k).trans_le hle, hlt.trans_eq ?_⟩
      rw [Nat.add_right_comm]
      exact (Nat.pow_add 2 53 k).symm
    rw [step, hlog, Nat.add_sub_cancel_left]
  have hbound : num < den * Nat.pow 2 53 := by
    refine Nat.lt_of_le_of_lt (Nat.le_mul_of_pos_right num (Nat.two_pow_pos j)) ?_
    rw [Nat.mul_comm den]
    exact hhigh
  have hj' : (0 : ℚ) < 2 ^ j := by positivity
  have hk' : (0 : ℚ) < 2 ^ k := by positivity
  rw [size_ofRatio negative hden hbound (by omega), hstep, hscaled, nearestEven_mul hk, hone]
  push_cast [Nat.pow_eq]
  field_simp

/-- Integers below `2 ^ 53` are not rounded. -/
theorem size_ofInt {i : Int} (hi : i.natAbs < 2 * exponentUnit) : (ofInt i).size = i.natAbs := by
  have hbound : i.natAbs < 1 * Nat.pow 2 53 := hi.trans_eq (Nat.one_mul _).symm
  obtain ⟨j, hone⟩ := exists_one_eq_mul (k := step i.natAbs 1) (step_le hbound)
  have hk : 0 < Nat.pow 2 (step i.natAbs 1) := Nat.two_pow_pos _
  have hself : nearestEven (i.natAbs * one) (1 * Nat.pow 2 (step i.natAbs 1)) =
      i.natAbs * Nat.pow 2 j := by
    rw [hone, Nat.one_mul, ← Nat.mul_assoc, nearestEven_mul_self hk]
  have hpos := one_cast_pos
  rw [ofInt, ofSignedRatio, size_ofRatio _ Nat.one_pos hbound (by omega), hself,
    div_eq_iff hpos.ne', hone]
  push_cast [Nat.pow_eq]
  ring

/-! ### Arithmetic -/

/-- A finite number of a given sign, and half a unit of a 53rd bit at most away from a rational
that is below `2 ^ e`. -/
structure Approximates (x : Binary64) (negative : Bool) (r : ℚ) (e : Nat) : Prop where
  /-- The number is finite. -/
  finite : x.isFinite = true
  /-- Its sign, which a zero has as well. -/
  sign : x.isNegative = negative
  /-- Its distance from the rational. -/
  error : |x.size - r| ≤ 2 ^ e / 2 ^ 54

theorem approximates_ofRatio {r : ℚ} (hden : 0 < den) (hr : (num : ℚ) / den = r) (h : r < 2 ^ e)
    (he : e ≤ 1023) : (ofRatio negative num den).Approximates negative r e := by
  have hnum : num < den * Nat.pow 2 e := by
    rw [Nat.mul_comm, ← div_lt_natCast_iff hden, hr]
    exact_mod_cast h
  exact ⟨isFinite_ofRatio negative hden hnum he, isNegative_ofRatio negative hden hnum he,
    hr ▸ abs_size_ofRatio_sub_le negative hden hnum he⟩

theorem approximates_ofInt {i : Int} (h : i.natAbs < Nat.pow 2 e) (he : e ≤ 1023) :
    (ofInt i).Approximates (decide (i < 0)) i.natAbs e :=
  approximates_ofRatio Nat.one_pos (by rw [Nat.cast_one, div_one]) (by exact_mod_cast h) he

theorem isNaN_of_isFinite (h : x.isFinite = true) : x.isNaN = false :=
  decide_eq_false (Nat.lt_asymm (of_decide_eq_true h))

theorem isInfinite_of_isFinite (h : x.isFinite = true) : x.isInfinite = false :=
  decide_eq_false (Nat.ne_of_lt (of_decide_eq_true h))

theorem unsignedMultiple_pos (h : 0 < x.size) : 0 < x.unsignedMultiple := by
  have hpos := (div_pos_iff_of_pos_right one_cast_pos).mp h
  exact_mod_cast hpos

theorem isZero_of_size_pos (h : 0 < x.size) : x.isZero = false := by
  refine decide_eq_false fun hzero => (unsignedMultiple_pos h).ne' ?_
  rw [unsignedMultiple, hzero]
  rfl

theorem size_mul_size : ((x.unsignedMultiple * y.unsignedMultiple : Nat) : ℚ) / (one * one : Nat) =
    x.size * y.size := by
  rw [size, size, div_mul_div_comm, Nat.cast_mul, Nat.cast_mul]

theorem size_div_size : (x.unsignedMultiple : ℚ) / y.unsignedMultiple = x.size / y.size :=
  (div_div_div_cancel_right₀ one_cast_pos.ne' _ _).symm

/-- The product of finite numbers is a rounded ratio. -/
theorem mul_eq_ofRatio (hx : x.isFinite = true) (hy : y.isFinite = true) :
    x.mul y = ofRatio (x.isNegative != y.isNegative) (x.unsignedMultiple * y.unsignedMultiple)
      (one * one) := by
  simp [mul, isNaN_of_isFinite, isInfinite_of_isFinite, hx, hy]

/-- The quotient of finite numbers is a rounded ratio. -/
theorem div_eq_ofRatio (hx : x.isFinite = true) (hy : y.isFinite = true) (hpos : 0 < y.size) :
    x.div y = ofRatio (x.isNegative != y.isNegative) x.unsignedMultiple y.unsignedMultiple := by
  simp [div, isNaN_of_isFinite, isInfinite_of_isFinite, isZero_of_size_pos, hx, hy, hpos]

theorem approximates_mul (hx : x.isFinite = true) (hy : y.isFinite = true)
    (h : x.size * y.size < 2 ^ e) (he : e ≤ 1023) :
    (x.mul y).Approximates (x.isNegative != y.isNegative) (x.size * y.size) e := by
  rw [mul_eq_ofRatio hx hy]
  exact approximates_ofRatio (Nat.mul_pos one_pos one_pos) size_mul_size h he

theorem approximates_div (hx : x.isFinite = true) (hy : y.isFinite = true) (hpos : 0 < y.size)
    (h : x.size / y.size < 2 ^ e) (he : e ≤ 1023) :
    (x.div y).Approximates (x.isNegative != y.isNegative) (x.size / y.size) e := by
  rw [div_eq_ofRatio hx hy hpos]
  exact approximates_ofRatio (unsignedMultiple_pos hpos) size_div_size h he

/-- A product that has 53 bits before the point once it is doubled `j` times is rounded to the
nearest integer then. -/
theorem size_mul_of_binade {j : Nat} (hj : j ≤ 1074) (hx : x.isFinite = true)
    (hy : y.isFinite = true) (hlow : 2 ^ 52 ≤ x.size * y.size * 2 ^ j)
    (hhigh : x.size * y.size * 2 ^ j < 2 ^ 53) :
    ∃ num den : Nat, 0 < den ∧ (num : ℚ) / den = x.size * y.size * 2 ^ j ∧
      (x.mul y).size = nearestEven num den / 2 ^ j := by
  have hden : 0 < one * one := Nat.mul_pos one_pos one_pos
  have hratio : ((x.unsignedMultiple * y.unsignedMultiple * Nat.pow 2 j : Nat) : ℚ) /
      (one * one : Nat) = x.size * y.size * 2 ^ j := by
    rw [← size_mul_size, Nat.cast_mul _ (Nat.pow 2 j), Nat.pow_eq, Nat.cast_pow, Nat.cast_ofNat,
      mul_div_right_comm]
  have hunit : (2 : ℚ) ^ 52 = exponentUnit := by norm_num [exponentUnit]
  have hunits : (2 : ℚ) ^ 53 = (2 * exponentUnit : Nat) := by norm_num [exponentUnit]
  rw [← hratio, hunit, natCast_le_div_iff hden] at hlow
  rw [← hratio, hunits, div_lt_natCast_iff hden] at hhigh
  refine ⟨_, _, hden, hratio, ?_⟩
  rw [mul_eq_ofRatio hx hy]
  exact size_ofRatio_of_binade hj hden hlow hhigh

/-! ### The nearest integer, halves going away from zero -/

theorem natAbs_roundAway (x : Binary64) :
    x.roundAway.natAbs = (2 * x.unsignedMultiple + one) / (2 * one) := by
  unfold roundAway
  dsimp only
  split_ifs
  · rw [Int.natAbs_neg, Int.natAbs_natCast]
  · rw [Int.natAbs_natCast]

theorem roundAway_eq (x : Binary64) :
    x.roundAway = if x.isNegative then -(x.roundAway.natAbs : Int) else x.roundAway.natAbs := by
  rw [natAbs_roundAway]
  rfl

theorem natAbs_roundAway_eq_iff :
    x.roundAway.natAbs = c ↔ c ≤ x.size + 1 / 2 ∧ x.size + 1 / 2 < c + 1 := by
  have hone := one_cast_pos
  have hpos : 0 < 2 * one := Nat.mul_pos Nat.two_pos one_pos
  have hhalf : x.size + 1 / 2 = (2 * x.unsignedMultiple + one : Nat) / (2 * one : Nat) := by
    rw [size]
    push_cast
    generalize (one : ℚ) = unit at hone
    field_simp
  rw [natAbs_roundAway, hhalf, natCast_le_div_iff hpos, ← Nat.cast_succ, div_lt_natCast_iff hpos,
    Nat.div_eq_iff hpos, Nat.succ_mul c]
  omega

end Binary64

end LiveQuery
