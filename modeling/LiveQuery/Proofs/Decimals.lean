import LiveQuery.Binary64.Decimal
import LiveQuery.Text.Numeral
import Mathlib.Algebra.Group.Nat.Defs
import Mathlib.Data.List.TakeWhile
import Mathlib.Tactic.SplitIfs

/-!
# Decimals that read back

The text of a real has as few digits as possible, and it stands for the real all the same: reading
it as a decimal and taking the nearest real gives the real again.  Two things come together here.
The digits are chosen so that they read back, or else are the exact ones, which are nearest to
nothing but the real itself.  And a text may move a decimal's point or drop zeros at its end, which
changes digits and exponent but not their product, on which rounding depends alone.

## Main definitions

* `readInt?`, `Decimal.read?`, `Binary64.read?`: reading integers, decimals and reals.
* `Decimal.Written`: texts of decimals that cannot be taken for integers.

## Main results

* `Binary64.roundRatio_congr`: rounding depends on a ratio only.
* `Binary64.ofDecimal_shortest`: the digits that are chosen read back.
* `Decimal.writtenFor_layout`: so they do wherever the point is placed.
* `Binary64.exists_written_chars`: the text of a finite real reads back.
-/

namespace LiveQuery

namespace Binary64

variable {num den c d : Nat} {x : Binary64} {negative : Bool}

/-! ### Rounding a ratio -/

/-- The nearest integer depends on the ratio only. -/
theorem nearestEven_mul (hc : 0 < c) : nearestEven (num * c) (den * c) = nearestEven num den := by
  have hlt (a b : Nat) : a * c < b * c ↔ a < b := Nat.mul_lt_mul_right hc
  unfold nearestEven
  simp only [Nat.mul_div_mul_right _ _ hc, Nat.mul_mod_mul_right, ← Nat.mul_assoc, hlt]

/-- The nearest number depends on the ratio only. -/
theorem roundRatio_mul (hc : 0 < c) : roundRatio (num * c) (den * c) = roundRatio num den := by
  have hscaled : num * c * one = num * one * c := Nat.mul_right_comm num c one
  have hden (k : Nat) : den * c * Nat.pow 2 k = den * Nat.pow 2 k * c :=
    Nat.mul_right_comm den c _
  unfold roundRatio
  simp only [hscaled, hden, Nat.mul_div_mul_right _ _ hc, nearestEven_mul hc]

/-- Equal ratios have the same nearest number. -/
theorem roundRatio_congr {num' den' : Nat} (hden : 0 < den) (hden' : 0 < den')
    (h : num * den' = num' * den) : roundRatio num den = roundRatio num' den' := by
  rw [← roundRatio_mul hden', h, Nat.mul_comm den, roundRatio_mul hden]

theorem roundRatio_le : roundRatio num den ≤ infiniteMagnitude := Nat.min_le_right _ _

/-- An integer is the nearest integer to itself. -/
theorem nearestEven_mul_self (hc : 0 < c) : nearestEven (num * c) c = num := by
  have h : nearestEven (num * c) (1 * c) = nearestEven num 1 := nearestEven_mul hc
  rw [Nat.one_mul] at h
  rw [h]
  simp [nearestEven, Nat.mod_one]

/-! ### Finite numbers -/

theorem pow_eq_one : Nat.pow 2 1074 = one := by decide +kernel

theorem magnitude_lt (x : Binary64) : x.magnitude < signWeight := Nat.mod_lt _ (by decide)

/-- A number is made up of its sign and its magnitude. -/
@[simp] theorem ofMagnitude_magnitude (x : Binary64) :
    ofMagnitude x.isNegative x.magnitude = x := by
  obtain ⟨bits⟩ := x
  have hlt : bits.toNat < 2 * signWeight := bits.toNat_lt
  have hsum : (if signWeight ≤ bits.toNat then signWeight else 0) + bits.toNat % signWeight =
      bits.toNat := by
    split_ifs with hle
    · rw [Nat.mod_eq_sub_mod hle, Nat.mod_eq_of_lt (by omega)]
      omega
    · rw [Nat.mod_eq_of_lt (by omega), Nat.zero_add]
  simp only [ofMagnitude, isNegative, magnitude, decide_eq_true_eq, hsum, UInt64.ofNat_toNat]

theorem magnitude_ofMagnitude (h : c < signWeight) : (ofMagnitude negative c).magnitude = c := by
  have hlt : (if negative then signWeight else 0) + c < 2 ^ 64 := by
    have hweight : 2 * signWeight = 2 ^ 64 := rfl
    split_ifs <;> omega
  rw [magnitude, ofMagnitude, UInt64.toNat_ofNat_of_lt' hlt]
  split_ifs
  · rw [Nat.add_mod_left, Nat.mod_eq_of_lt h]
  · rw [Nat.zero_add, Nat.mod_eq_of_lt h]

/-- A number with a significand of 53 bits has 52 bits behind the first one, and those of its
scale. -/
theorem log2_significand {m : Nat} (k : Nat) (hlow : exponentUnit ≤ m)
    (hhigh : m < 2 * exponentUnit) : (m * Nat.pow 2 k).log2 = 52 + k := by
  have hk : 0 < 2 ^ k := Nat.two_pow_pos k
  have hm : 0 < m := Nat.lt_of_lt_of_le (by decide : 0 < exponentUnit) hlow
  refine (Nat.log2_eq_iff (Nat.mul_pos hm hk).ne').mpr ⟨?_, ?_⟩
  · rw [Nat.pow_add]
    exact Nat.mul_le_mul_right _ hlow
  · rw [Nat.add_right_comm, Nat.pow_add]
    exact Nat.mul_lt_mul_of_pos_right hhigh hk

/-- **A finite number is the nearest number to itself.**  Above the exponent zero its significand
has 53 bits, so the step that rounding leaves is its own one. -/
theorem roundRatio_unsignedMultiple (hfinite : x.isFinite = true) :
    roundRatio x.unsignedMultiple one = x.magnitude := by
  have hlt : x.magnitude < infiniteMagnitude := of_decide_eq_true hfinite
  have hnearest (k : Nat) : nearestEven (x.unsignedMultiple * one) (one * Nat.pow 2 k) =
      nearestEven x.unsignedMultiple (Nat.pow 2 k) := by
    rw [Nat.mul_comm one, nearestEven_mul one_pos]
  simp only [roundRatio, Nat.mul_div_cancel _ one_pos, hnearest]
  suffices hsteps : (x.unsignedMultiple.log2 - 52) * exponentUnit +
      nearestEven x.unsignedMultiple (Nat.pow 2 (x.unsignedMultiple.log2 - 52)) = x.magnitude by
    rw [hsteps, Nat.min_eq_left hlt.le]
  by_cases hsmall : x.magnitude < exponentUnit
  · have hmultiple : x.unsignedMultiple = x.magnitude := by
      have hscale : scale x.magnitude = 0 := by rw [scale, Nat.div_eq_of_lt hsmall]
      rw [unsignedMultiple, hscale, significand, if_pos hsmall]
      exact Nat.mul_one _
    have hbits : x.magnitude.log2 - 52 = 0 := by
      by_cases hzero : x.magnitude = 0
      · rw [hzero]
        rfl
      · have hlog : x.magnitude.log2 < 52 := (Nat.log2_lt hzero).mpr hsmall
        omega
    have hself : nearestEven (x.magnitude * 1) 1 = x.magnitude := nearestEven_mul_self Nat.one_pos
    rw [Nat.mul_one] at hself
    rw [hmultiple, hbits, Nat.zero_mul, Nat.zero_add]
    exact hself
  · have hmultiple : x.unsignedMultiple =
        (exponentUnit + x.magnitude % exponentUnit) *
          Nat.pow 2 (x.magnitude / exponentUnit - 1) := by
      rw [unsignedMultiple, significand, if_neg hsmall, scale]
    have hrest : x.magnitude % exponentUnit < exponentUnit := Nat.mod_lt _ (by decide)
    have hlog := log2_significand (x.magnitude / exponentUnit - 1)
      (Nat.le_add_right exponentUnit (x.magnitude % exponentUnit)) (by omega)
    have hfield : 1 ≤ x.magnitude / exponentUnit :=
      (Nat.one_le_div_iff (by decide)).mpr (Nat.le_of_not_lt hsmall)
    have hpow : 0 < Nat.pow 2 (x.magnitude / exponentUnit - 1) := Nat.two_pow_pos _
    rw [hmultiple, hlog, Nat.add_sub_cancel_left, nearestEven_mul_self hpow, ← Nat.add_assoc,
      ← Nat.succ_mul, Nat.succ_eq_add_one, Nat.sub_add_cancel hfield, Nat.div_add_mod']

/-! ### Decimals of one value -/

/-- A decimal is a ratio whose terms are its power of ten and the inverse of it, one of which is
one. -/
theorem ofDecimal_eq_ofRatio (negative : Bool) (digits : Nat) (exponent : Int) :
    ofDecimal negative digits exponent =
      ofRatio negative (digits * 10 ^ exponent.toNat) (10 ^ (-exponent).toNat) := by
  cases exponent with
  | ofNat e =>
    have hinverse : (-Int.ofNat e).toNat = 0 := by simp
    rw [hinverse, Nat.pow_zero]
    rfl
  | negSucc e =>
    have hpower : (Int.negSucc e).toNat = 0 := rfl
    rw [hpower, Nat.pow_zero, Nat.mul_one]
    rfl

/-- Zeros at the end of the digits can be moved into the exponent. -/
theorem ofDecimal_shift (negative : Bool) (digits zeros : Nat) (exponent : Int) :
    ofDecimal negative (digits * 10 ^ zeros) (exponent - zeros) =
      ofDecimal negative digits exponent := by
  rw [ofDecimal_eq_ofRatio, ofDecimal_eq_ofRatio, ofRatio, ofRatio]
  refine congrArg _ (roundRatio_congr (Nat.pow_pos (by decide)) (Nat.pow_pos (by decide)) ?_)
  rw [Nat.mul_assoc, Nat.mul_assoc, Nat.mul_assoc, ← Nat.pow_add, ← Nat.pow_add, ← Nat.pow_add]
  congr 2
  omega

theorem ofDecimal_zero (negative : Bool) (exponent : Int) :
    ofDecimal negative 0 exponent = ofMagnitude negative 0 := by
  have hround (den : Nat) : roundRatio 0 den = 0 := by simp [roundRatio, nearestEven]
  rw [ofDecimal_eq_ofRatio, Nat.zero_mul, ofRatio, hround]

theorem magnitude_ofDecimal (digits : Nat) (exponent : Int) :
    ∃ magnitude < signWeight, ∀ negative,
      ofDecimal negative digits exponent = ofMagnitude negative magnitude := by
  refine ⟨_, ?_, fun negative => ofDecimal_eq_ofRatio negative digits exponent⟩
  exact Nat.lt_of_le_of_lt roundRatio_le (by decide)

/-- A decimal that reads back as a number does so with the sign of the number. -/
theorem ofDecimal_eq_of_reads {digits : Nat} {exponent : Int}
    (h : x.reads digits exponent = true) : ofDecimal x.isNegative digits exponent = x := by
  obtain ⟨magnitude, hlt, hdecimal⟩ := magnitude_ofDecimal digits exponent
  have hmagnitude : (ofDecimal false digits exponent).magnitude = x.magnitude := beq_iff_eq.mp h
  rw [hdecimal, magnitude_ofMagnitude hlt] at hmagnitude
  rw [hdecimal, hmagnitude, ofMagnitude_magnitude]

/-- What is found on a decimal grid reads back. -/
theorem reads_of_readsAt {exponent : Int} {digits : Nat}
    (h : x.readsAt exponent = some digits) : x.reads digits exponent = true := by
  unfold readsAt at h
  dsimp only at h
  split at h
  next hbelow habove =>
    obtain rfl := Option.some.inj h
    split_ifs
    · exact hbelow
    · exact habove
  next hbelow _ =>
    obtain rfl := Option.some.inj h
    exact hbelow
  next _ habove =>
    obtain rfl := Option.some.inj h
    exact habove
  next => cases h

/-- The exact decimal reads back: powers of two are powers of ten over powers of five. -/
theorem reads_exactDecimal (hfinite : x.isFinite = true) :
    x.reads x.exactDecimal.digits x.exactDecimal.exponent = true := by
  have hround (k : Nat) : roundRatio (x.unsignedMultiple * Nat.pow 5 k) (10 ^ k) =
      roundRatio x.unsignedMultiple (Nat.pow 2 k) := by
    have hten : 10 ^ k = Nat.pow 2 k * Nat.pow 5 k := Nat.mul_pow 2 5 k
    have hfive : 0 < Nat.pow 5 k := Nat.pow_pos (by decide)
    rw [hten, roundRatio_mul hfive]
  have hdecimal (k : Nat) (e : Int) (he : e = -(k : Int)) (hk : Nat.pow 2 k = one) :
      ofDecimal false (x.unsignedMultiple * Nat.pow 5 k) e = ofMagnitude false x.magnitude := by
    have hpower : e.toNat = 0 := by omega
    have hinverse : (-e).toNat = k := by omega
    rw [ofDecimal_eq_ofRatio, hpower, hinverse, Nat.pow_zero, Nat.mul_one, ofRatio, hround, hk,
      roundRatio_unsignedMultiple hfinite]
  have hexact := hdecimal _ (-1074) (by rfl) pow_eq_one
  rw [reads, beq_iff_eq, exactDecimal, hexact, magnitude_ofMagnitude x.magnitude_lt]

/-- **The shortest decimal reads back.**  So does any other one that is taken instead. -/
theorem ofDecimal_shortest (hfinite : x.isFinite = true) :
    ofDecimal x.isNegative x.shortest.digits x.shortest.exponent = x := by
  refine ofDecimal_eq_of_reads ?_
  unfold shortest
  generalize hfound : (List.range 17).findSome? _ = found
  cases found with
  | none => exact reads_exactDecimal hfinite
  | some d =>
    obtain ⟨i, -, hi⟩ := List.exists_of_findSome?_eq_some hfound
    obtain ⟨digits, hdigits, rfl⟩ := Option.map_eq_some_iff.mp hi
    exact reads_of_readsAt hdigits

end Binary64

/-! ### Reading numbers -/

/-- Reads a natural number, which has one digit at least. -/
def readNat? (text : List Char) : Option Nat :=
  if text ≠ [] ∧ text.all Char.isDigit then some (Nat.ofDigitChars 10 text 0) else none

/-- Reads an integer, which may have a sign. -/
def readInt? (text : List Char) : Option Int :=
  let (negative, digits) := Numeral.readSign text
  (readNat? digits).map fun n : Nat => if negative then -(n : Int) else n

namespace Decimal

/-- Reads an exponent, which may be missing. -/
def readExponent? : List Char → Option Int
  | [] => some 0
  | 'e' :: exponent => readInt? exponent
  | _ => none

/-- Reads the digits after a point, if there is a point. -/
def readFraction : List Char → List Char × List Char
  | '.' :: rest => (rest.takeWhile Char.isDigit, rest.dropWhile Char.isDigit)
  | rest => ([], rest)

/-- Reads a decimal: digits, perhaps a point with further digits, and perhaps an exponent. -/
def read? (text : List Char) : Option Decimal :=
  let whole := text.takeWhile Char.isDigit
  let (fraction, rest) := readFraction (text.dropWhile Char.isDigit)
  if whole.isEmpty then none
  else
    (readExponent? rest).map fun exponent =>
      ⟨Nat.ofDigitChars 10 (whole ++ fraction) 0, exponent - fraction.length⟩

end Decimal

/-- Reads a decimal, which may have a sign, as the nearest real. -/
def Binary64.read? (text : List Char) : Option Binary64 :=
  let (negative, digits) := Numeral.readSign text
  (Decimal.read? digits).map fun d => ofDecimal negative d.digits d.exponent

/-- The sign of a negative number. -/
def signText (negative : Bool) : List Char := if negative then ['-'] else []

/-- A sign is read off a text that goes on with a digit. -/
theorem readSign_signText {c : Char} {rest : List Char} (hc : c.isDigit = true) (negative : Bool) :
    Numeral.readSign (signText negative ++ c :: rest) = (negative, c :: rest) := by
  cases negative with
  | true => rfl
  | false =>
    have hminus : c ≠ '-' := by
      rintro rfl
      exact absurd hc (by decide)
    have hplus : c ≠ '+' := by
      rintro rfl
      exact absurd hc (by decide)
    simp [signText, Numeral.readSign, hminus, hplus]

theorem readNat?_toDigits (n : Nat) : readNat? (Nat.toDigits 10 n) = some n := by
  have hall : (Nat.toDigits 10 n).all Char.isDigit = true :=
    List.all_eq_true.mpr Numeral.isDigit_toDigits
  rw [readNat?, if_pos ⟨Nat.toDigits_ne_nil, hall⟩, Nat.ofDigitChars_ten_toDigits]

/-- The text of an integer: the digits of its absolute value, behind a sign if it is negative. -/
theorem toList_toString_int (i : Int) :
    (toString i).toList = signText (i < 0) ++ Nat.toDigits 10 i.natAbs := by
  cases i with
  | ofNat n =>
    have hsign : decide (Int.ofNat n < 0) = false :=
      decide_eq_false (Int.not_lt.mpr (Int.natCast_nonneg n))
    rw [hsign]
    exact Nat.toList_repr
  | negSucc n =>
    have htext : (toString (Int.negSucc n)).toList = ("-" ++ (n + 1).repr).toList := rfl
    rw [decide_eq_true (Int.negSucc_lt_zero n), htext, String.toList_append, Nat.toList_repr]
    rfl

theorem readInt?_toString (i : Int) : readInt? (toString i).toList = some i := by
  have hdigits := readNat?_toDigits i.natAbs
  obtain ⟨c, rest, htext⟩ := List.exists_cons_of_ne_nil (Nat.toDigits_ne_nil (n := i.natAbs))
  have hc : c.isDigit = true := Numeral.isDigit_toDigits c (htext ▸ List.mem_cons_self)
  rw [htext] at hdigits
  rw [toList_toString_int, htext, readInt?, readSign_signText hc]
  dsimp only
  rw [hdigits, Option.map_some]
  simp only [decide_eq_true_eq]
  split_ifs <;> exact congrArg some (by omega)

namespace Decimal

/-! ### Reading the parts of a decimal -/

section Parts

variable {whole fraction rest : List Char} {exponent : Int}

/-- What follows the digits of a decimal does not begin with a digit. -/
theorem head_of_readExponent? (h : readExponent? rest = some exponent) :
    rest.takeWhile Char.isDigit = [] ∧ rest.dropWhile Char.isDigit = rest := by
  unfold readExponent? at h
  split at h
  next => exact ⟨rfl, rfl⟩
  next => exact ⟨rfl, rfl⟩
  next => cases h

theorem readFraction_of_readExponent? (h : readExponent? rest = some exponent) :
    readFraction rest = ([], rest) := by
  unfold readExponent? at h
  split at h
  next => rfl
  next => rfl
  next => cases h

/-- Digits, and perhaps an exponent. -/
theorem read?_whole (hwhole : ∀ c ∈ whole, c.isDigit = true) (hne : whole ≠ [])
    (hrest : readExponent? rest = some exponent) :
    read? (whole ++ rest) = some ⟨Nat.ofDigitChars 10 whole 0, exponent⟩ := by
  obtain ⟨htake, hdrop⟩ := head_of_readExponent? hrest
  unfold read?
  rw [List.takeWhile_append_of_pos hwhole, List.dropWhile_append_of_pos hwhole, htake, hdrop,
    List.append_nil, readFraction_of_readExponent? hrest]
  simp [hne, hrest]

/-- Digits, a point with further digits, and perhaps an exponent. -/
theorem read?_fraction (hwhole : ∀ c ∈ whole, c.isDigit = true) (hne : whole ≠ [])
    (hfraction : ∀ c ∈ fraction, c.isDigit = true) (hrest : readExponent? rest = some exponent) :
    read? (whole ++ '.' :: (fraction ++ rest)) =
      some ⟨Nat.ofDigitChars 10 (whole ++ fraction) 0, exponent - fraction.length⟩ := by
  obtain ⟨htake, hdrop⟩ := head_of_readExponent? hrest
  have hpoint : ('.' :: (fraction ++ rest)).takeWhile Char.isDigit = [] := rfl
  have hpoint' : ('.' :: (fraction ++ rest)).dropWhile Char.isDigit = '.' :: (fraction ++ rest) :=
    rfl
  unfold read?
  rw [List.takeWhile_append_of_pos hwhole, List.dropWhile_append_of_pos hwhole, hpoint, hpoint',
    List.append_nil, readFraction, List.takeWhile_append_of_pos hfraction,
    List.dropWhile_append_of_pos hfraction, htake, hdrop, List.append_nil]
  simp [hne, hrest]

end Parts

/-! ### Laid out decimals -/

section Layout

variable (d : Decimal)

/-- The number that the significant digits make up. -/
def coefficient : Nat := Nat.ofDigitChars 10 d.significant 0

/-- The power of ten of the last significant digit. -/
def unit : Int := d.leading + 1 - d.significant.length

/-- The digits are the significant ones and zeros behind them. -/
theorem exists_zeros :
    ∃ zeros, Nat.toDigits 10 d.digits = d.significant ++ List.replicate zeros '0' := by
  generalize htext : (Nat.toDigits 10 d.digits).reverse = text
  have hzeros : ∀ c ∈ text.takeWhile (· == '0'), c = '0' := by
    intro c hc
    have hzero := List.mem_takeWhile_imp hc
    exact beq_iff_eq.mp hzero
  refine ⟨(text.takeWhile (· == '0')).length, ?_⟩
  calc Nat.toDigits 10 d.digits = text.reverse := by rw [← htext, List.reverse_reverse]
    _ = (text.takeWhile (· == '0') ++ text.dropWhile (· == '0')).reverse := by
      rw [List.takeWhile_append_dropWhile]
    _ = (text.dropWhile (· == '0')).reverse ++ (text.takeWhile (· == '0')).reverse :=
      List.reverse_append
    _ = d.significant ++ List.replicate (text.takeWhile (· == '0')).length '0' := by
      rw [significant, htext, List.eq_replicate_of_mem hzeros, List.reverse_replicate,
        List.length_replicate]

theorem isDigit_significant : ∀ c ∈ d.significant, c.isDigit = true := by
  obtain ⟨zeros, h⟩ := d.exists_zeros
  intro c hc
  refine Numeral.isDigit_toDigits c (n := d.digits) ?_
  rw [h]
  exact List.mem_append_left _ hc

/-- **A decimal is given by its significant digits and the power of ten of the last one.** -/
theorem ofDecimal_coefficient (negative : Bool) (moved : Nat) :
    Binary64.ofDecimal negative (d.coefficient * 10 ^ moved) (d.unit - moved) =
      Binary64.ofDecimal negative d.digits d.exponent := by
  obtain ⟨zeros, h⟩ := d.exists_zeros
  have hdigits : d.digits = d.coefficient * 10 ^ zeros := by
    rw [← Nat.ofDigitChars_ten_toDigits (n := d.digits), h, Nat.ofDigitChars_append,
      Nat.ofDigitChars_replicate_zero, Nat.mul_comm]
    rfl
  have hunit : d.exponent = d.unit - zeros := by
    have hlength := congrArg List.length h
    rw [List.length_append, List.length_replicate] at hlength
    rw [unit, leading]
    omega
  rw [hdigits, hunit, Binary64.ofDecimal_shift, Binary64.ofDecimal_shift]

/-- A decimal other than zero has a significant digit. -/
theorem significant_ne_nil (h : d.digits ≠ 0) : d.significant ≠ [] := by
  intro hnil
  obtain ⟨zeros, htext⟩ := d.exists_zeros
  rw [hnil, List.nil_append] at htext
  refine h ?_
  rw [← Nat.ofDigitChars_ten_toDigits (n := d.digits), htext, Nat.ofDigitChars_replicate_zero,
    Nat.mul_zero]

end Layout

/-! ### Written decimals -/

/-- A text in which a decimal is written so that it can be told from an integer: digits and a point
with further digits, or an exponent, or both. -/
inductive Written : List Char → Decimal → Prop
  | point {whole fraction : List Char} (hwhole : ∀ c ∈ whole, c.isDigit = true)
      (hne : whole ≠ []) (hfraction : ∀ c ∈ fraction, c.isDigit = true) :
      Written (whole ++ '.' :: fraction)
        ⟨Nat.ofDigitChars 10 (whole ++ fraction) 0, -fraction.length⟩
  | exponent {whole : List Char} (hwhole : ∀ c ∈ whole, c.isDigit = true) (hne : whole ≠ [])
      (e : Int) :
      Written (whole ++ 'e' :: (toString e).toList) ⟨Nat.ofDigitChars 10 whole 0, e⟩
  | both {whole fraction : List Char} (hwhole : ∀ c ∈ whole, c.isDigit = true)
      (hne : whole ≠ []) (hfraction : ∀ c ∈ fraction, c.isDigit = true) (e : Int) :
      Written (whole ++ '.' :: (fraction ++ 'e' :: (toString e).toList))
        ⟨Nat.ofDigitChars 10 (whole ++ fraction) 0, e - fraction.length⟩

/-- Whether a character can be part of a number. -/
def isNumeral (c : Char) : Bool := c.isDigit || c == '-' || c == '.' || c == 'e'

theorem isNumeral_of_isDigit {c : Char} (h : c.isDigit = true) : isNumeral c = true := by
  simp [isNumeral, h]

theorem isNumeral_signText (negative : Bool) : ∀ c ∈ signText negative, isNumeral c = true := by
  unfold signText
  split_ifs
  · exact List.forall_mem_singleton.mpr rfl
  · exact nofun

theorem isNumeral_toString (i : Int) : ∀ c ∈ (toString i).toList, isNumeral c = true := by
  rw [toList_toString_int]
  exact List.forall_mem_append.mpr ⟨isNumeral_signText _,
    fun c hc => isNumeral_of_isDigit (Numeral.isDigit_toDigits c hc)⟩

namespace Written

variable {text : List Char} {d : Decimal}

theorem read? (h : Written text d) : Decimal.read? text = some d := by
  cases h with
  | point hwhole hne hfraction =>
    have hrest : readExponent? [] = some 0 := rfl
    have hread := read?_fraction hwhole hne hfraction hrest
    rwa [List.append_nil, Int.zero_sub] at hread
  | exponent hwhole hne e => exact read?_whole hwhole hne (readInt?_toString e)
  | both hwhole hne hfraction e =>
    exact read?_fraction hwhole hne hfraction (readInt?_toString e)

/-- All characters are part of a number. -/
theorem isNumeral (h : Written text d) : ∀ c ∈ text, isNumeral c = true := by
  have hdigit {digits : List Char} (h : ∀ c ∈ digits, c.isDigit = true) :
      ∀ c ∈ digits, Decimal.isNumeral c = true := fun c hc => isNumeral_of_isDigit (h c hc)
  have hexponent := isNumeral_toString
  cases h with
  | point hwhole hne hfraction =>
    exact List.forall_mem_append.mpr ⟨hdigit hwhole, List.forall_mem_cons.mpr
      ⟨rfl, hdigit hfraction⟩⟩
  | exponent hwhole hne e =>
    exact List.forall_mem_append.mpr ⟨hdigit hwhole, List.forall_mem_cons.mpr ⟨rfl, hexponent e⟩⟩
  | both hwhole hne hfraction e =>
    exact List.forall_mem_append.mpr ⟨hdigit hwhole, List.forall_mem_cons.mpr ⟨rfl,
      List.forall_mem_append.mpr ⟨hdigit hfraction,
        List.forall_mem_cons.mpr ⟨rfl, hexponent e⟩⟩⟩⟩

/-- The first character is a digit. -/
theorem exists_cons (h : Written text d) : ∃ c rest, text = c :: rest ∧ c.isDigit = true := by
  have hfirst {whole rest : List Char} (hwhole : ∀ c ∈ whole, c.isDigit = true)
      (hne : whole ≠ []) : ∃ c rest', whole ++ rest = c :: rest' ∧ c.isDigit = true := by
    obtain ⟨c, whole, rfl⟩ := List.exists_cons_of_ne_nil hne
    exact ⟨c, whole ++ rest, rfl, hwhole c List.mem_cons_self⟩
  cases h with
  | point hwhole hne hfraction => exact hfirst hwhole hne
  | exponent hwhole hne e => exact hfirst hwhole hne
  | both hwhole hne hfraction e => exact hfirst hwhole hne

/-- It is no integer. -/
theorem readNat? (h : Written text d) : LiveQuery.readNat? text = none := by
  have hmark {whole rest : List Char} {c : Char} (hc : c.isDigit = false) :
      LiveQuery.readNat? (whole ++ c :: rest) = none := by
    simp [LiveQuery.readNat?, hc]
  cases h with
  | point hwhole hne hfraction => exact hmark rfl
  | exponent hwhole hne e => exact hmark rfl
  | both hwhole hne hfraction e => exact hmark rfl

/-- It has a point or an exponent. -/
theorem mark_mem (h : Written text d) : '.' ∈ text ∨ 'e' ∈ text := by
  cases h with
  | point hwhole hne hfraction => exact Or.inl List.mem_append_cons_self
  | exponent hwhole hne e => exact Or.inr List.mem_append_cons_self
  | both hwhole hne hfraction e => exact Or.inl List.mem_append_cons_self

end Written

/-! ### Where the point stands -/

section Points

variable (d : Decimal)

/-- A text is written for a decimal, perhaps with zeros moved from its exponent to its digits. -/
def WrittenFor (text : List Char) : Prop :=
  ∃ moved : Nat, Written text ⟨d.coefficient * 10 ^ moved, d.unit - moved⟩

variable {d}

/-- Digits with a point among them are written for a decimal if they are its significant ones, with
zeros in front of them or behind them, and as many are behind the point as its exponent says. -/
theorem writtenFor_point {whole fraction : List Char} {moved : Nat}
    (hwhole : ∀ c ∈ whole, c.isDigit = true) (hne : whole ≠ [])
    (hfraction : ∀ c ∈ fraction, c.isDigit = true)
    (hvalue : Nat.ofDigitChars 10 (whole ++ fraction) 0 = d.coefficient * 10 ^ moved)
    (hexponent : -(fraction.length : Int) = d.unit - moved) :
    d.WrittenFor (whole ++ '.' :: fraction) := by
  have h := Written.point hwhole hne hfraction
  rw [hvalue, hexponent] at h
  exact ⟨moved, h⟩

theorem isDigit_replicate (n : Nat) : ∀ c ∈ List.replicate n '0', c.isDigit = true := by
  intro c hc
  rw [List.eq_of_mem_replicate hc]
  rfl

/-- The point stands before the first significant digit. -/
theorem writtenFor_before (hsmall : d.leading < 0) :
    d.WrittenFor
      ('0' :: '.' :: (List.replicate (-d.leading - 1).toNat '0' ++ d.significant)) := by
  have hvalue : Nat.ofDigitChars 10
      (['0'] ++ (List.replicate (-d.leading - 1).toNat '0' ++ d.significant)) 0 =
        d.coefficient * 10 ^ 0 := by
    rw [Nat.ofDigitChars_append, Nat.ofDigitChars_append, Nat.ofDigitChars_replicate_zero]
    simp [coefficient, Nat.ofDigitChars]
  have hexponent : -((List.replicate (-d.leading - 1).toNat '0' ++ d.significant).length : Int) =
      d.unit - (0 : Nat) := by
    rw [List.length_append, List.length_replicate, unit]
    omega
  exact writtenFor_point (isDigit_replicate 1) (List.cons_ne_nil _ _)
    (List.forall_mem_append.mpr ⟨isDigit_replicate _, d.isDigit_significant⟩) hvalue hexponent

/-- The point stands behind the last significant digit, and zeros fill the gap. -/
theorem writtenFor_behind {gap : Nat} (hne : d.significant ≠ [])
    (hgap : d.leading + 1 = d.significant.length + gap) :
    d.WrittenFor (d.significant ++ List.replicate gap '0' ++ ['.', '0']) := by
  have hvalue : Nat.ofDigitChars 10 (d.significant ++ List.replicate gap '0' ++ ['0']) 0 =
      d.coefficient * 10 ^ (gap + 1) := by
    rw [List.append_assoc, ← List.replicate_succ', Nat.ofDigitChars_append,
      Nat.ofDigitChars_replicate_zero, Nat.mul_comm]
    rfl
  have hexponent : -((['0'] : List Char).length : Int) = d.unit - (gap + 1 : Nat) := by
    rw [unit, List.length_singleton]
    omega
  exact writtenFor_point (List.forall_mem_append.mpr ⟨d.isDigit_significant, isDigit_replicate _⟩)
    (List.append_ne_nil_of_left_ne_nil hne _) (isDigit_replicate 1) hvalue hexponent

/-- The point stands between two significant digits. -/
theorem writtenFor_within {whole : Nat} (hwhole : d.leading + 1 = whole) (hpos : 0 < whole)
    (hlt : whole < d.significant.length) :
    d.WrittenFor (d.significant.take whole ++ '.' :: d.significant.drop whole) := by
  have htake : d.significant.take whole ≠ [] :=
    List.ne_nil_of_length_pos (by rw [List.length_take]; omega)
  have hvalue : Nat.ofDigitChars 10 (d.significant.take whole ++ d.significant.drop whole) 0 =
      d.coefficient * 10 ^ 0 := by
    rw [List.take_append_drop, Nat.pow_zero, Nat.mul_one, coefficient]
  have hexponent : -((d.significant.drop whole).length : Int) = d.unit - (0 : Nat) := by
    rw [unit, List.length_drop]
    omega
  exact writtenFor_point (fun c hc => d.isDigit_significant c (List.mem_of_mem_take hc)) htake
    (fun c hc => d.isDigit_significant c (List.mem_of_mem_drop hc)) hvalue hexponent

/-- The only significant digit stands before the exponent. -/
theorem writtenFor_single {first : Char} (h : d.significant = [first]) :
    d.WrittenFor ([first] ++ 'e' :: (toString d.leading).toList) := by
  have hdigits := d.isDigit_significant
  rw [h] at hdigits
  have hwritten := Written.exponent hdigits (List.cons_ne_nil _ _) d.leading
  have hexponent : d.leading = d.unit - (0 : Nat) := by
    rw [unit, h, List.length_singleton]
    omega
  refine ⟨0, ?_⟩
  rw [Nat.pow_zero, Nat.mul_one, coefficient, h, ← hexponent]
  exact hwritten

/-- The point stands behind the first significant digit, and the exponent behind the others. -/
theorem writtenFor_exponent {first second : Char} {rest : List Char}
    (h : d.significant = first :: second :: rest) :
    d.WrittenFor ([first] ++ '.' :: (second :: rest ++ 'e' :: (toString d.leading).toList)) := by
  have hdigits := d.isDigit_significant
  rw [h] at hdigits
  obtain ⟨hfirst, hrest⟩ := List.forall_mem_cons.mp hdigits
  have hwritten := Written.both (List.forall_mem_singleton.mpr hfirst) (List.cons_ne_nil _ _) hrest
    d.leading
  have hexponent : d.leading - (second :: rest).length = d.unit - (0 : Nat) := by
    rw [unit, h, List.length_cons, List.length_cons, List.length_cons]
    omega
  rw [hexponent] at hwritten
  refine ⟨0, ?_⟩
  rw [Nat.pow_zero, Nat.mul_one, coefficient, h]
  exact hwritten

end Points

/-- **A decimal is laid out so that it reads back**, wherever its point is placed. -/
theorem writtenFor_layout (d : Decimal) (hne : d.significant ≠ []) :
    d.WrittenFor (RealStyle.exact.layout d) := by
  have hlength : 0 < d.significant.length := List.length_pos_iff.mpr hne
  unfold RealStyle.layout
  dsimp only
  split_ifs with hpositional hsmall hwhole
  · exact writtenFor_before hsmall
  · exact writtenFor_behind hne (by omega)
  · exact writtenFor_within (by omega) (Nat.succ_pos _) (by omega)
  · match h : d.significant with
    | [] => exact absurd h hne
    | [first] => exact writtenFor_single h
    | first :: second :: rest => exact writtenFor_exponent h

end Decimal

namespace Binary64

variable {x : Binary64}

/-- The decimal of a number other than zero is not zero. -/
theorem digits_shortest_ne_zero (hfinite : x.isFinite = true) (hzero : x.isZero = false) :
    x.shortest.digits ≠ 0 := by
  intro hdigits
  have hx := ofDecimal_shortest hfinite
  rw [hdigits, ofDecimal_zero] at hx
  have hmagnitude := congrArg magnitude hx
  rw [magnitude_ofMagnitude (by decide)] at hmagnitude
  exact absurd hmagnitude.symm (of_decide_eq_false hzero)

/-- **The text of a finite number reads back.** -/
theorem exists_written_chars (hfinite : x.isFinite = true) :
    ∃ text d, x.chars .exact = signText x.isNegative ++ text ∧
      Decimal.Written text d ∧ ofDecimal x.isNegative d.digits d.exponent = x := by
  have hlt : x.magnitude < infiniteMagnitude := of_decide_eq_true hfinite
  have hnan : x.isNaN = false := decide_eq_false (Nat.not_lt.mpr hlt.le)
  have hinfinite : x.isInfinite = false := decide_eq_false hlt.ne
  simp only [chars, hnan, hinfinite, if_neg Bool.false_ne_true]
  by_cases hzero : x.isZero = true
  · have hx : ofDecimal x.isNegative 0 (-1) = x := by
      rw [ofDecimal_zero, ← of_decide_eq_true hzero, ofMagnitude_magnitude]
    refine ⟨['0', '.', '0'], ⟨0, -1⟩, by rw [if_pos hzero]; rfl, ?_, hx⟩
    have hdigit : ∀ c ∈ ['0'], c.isDigit = true := List.forall_mem_singleton.mpr rfl
    exact Decimal.Written.point hdigit (List.cons_ne_nil _ _) hdigit
  · obtain ⟨moved, hwritten⟩ := Decimal.writtenFor_layout x.shortest
      (x.shortest.significant_ne_nil (digits_shortest_ne_zero hfinite (by simpa using hzero)))
    refine ⟨RealStyle.exact.layout x.shortest, _, by rw [if_neg hzero, signText], hwritten, ?_⟩
    rw [Decimal.ofDecimal_coefficient, ofDecimal_shortest hfinite]

/-- A written decimal behind a sign is read as the nearest real. -/
theorem read?_written {text : List Char} {d : Decimal} (h : Decimal.Written text d)
    (negative : Bool) :
    read? (signText negative ++ text) = some (ofDecimal negative d.digits d.exponent) := by
  have hread := h.read?
  obtain ⟨c, rest, rfl, hc⟩ := h.exists_cons
  rw [read?, readSign_signText hc]
  dsimp only
  rw [hread, Option.map_some]

end Binary64

/-- A written decimal is not read as an integer. -/
theorem readInt?_written {text : List Char} {d : Decimal} (h : Decimal.Written text d)
    (negative : Bool) : readInt? (signText negative ++ text) = none := by
  have hread := h.readNat?
  obtain ⟨c, rest, rfl, hc⟩ := h.exists_cons
  rw [readInt?, readSign_signText hc]
  dsimp only
  rw [hread, Option.map_none]

end LiveQuery
