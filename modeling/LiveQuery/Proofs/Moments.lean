import LiveQuery.Field.Basic
import LiveQuery.Proofs.Rounding
import Mathlib.Tactic.NormNum

/-!
# Moments that read back

A moment is stored as a real number of seconds, the rounded quotient of its microseconds and a
million, and it is read back as the integer nearest to the product of that real and a million, which
is rounded as well.  How far this moves a moment depends on two binades, that of the seconds and
that of the microseconds, and these do not change at the same moments.  Up to `2 ^ 32` seconds all
is well.  From there on the seconds may be off by nearly half a microsecond, while the product is
rounded to half microseconds up to `2 ^ 52` of them: what is off by more than a quarter becomes a
half, and a half goes away from the epoch.  Then the product is rounded to whole microseconds, and
all is well again up to `2 ^ 33` seconds, where reals are too far apart to tell microseconds from
each other.

## Main definitions

* `Timestamp.excess`: how far the stored seconds are off, in microseconds.

## Main results

* `Timestamp.decode_encode_iff`: which moments read back, within `2 ^ 33` seconds of the epoch.
* `Timestamp.exists_decode_encode`: any moment reads back as one near it.
* `Timestamp.keeps_micros`: both together.
-/

namespace LiveQuery

namespace Timestamp

open Binary64

variable {t t' : Timestamp} {x : Binary64}

theorem isFinite_million : million.isFinite = true := by decide +kernel

theorem isNegative_million : million.isNegative = false := by decide +kernel

theorem size_million : million.size = 1000000 := by
  have hsize := size_ofInt (i := 1000000) (by decide)
  exact_mod_cast hsize

/-! ### What is read back -/

theorem clamp_eq (hx : x.isFinite = true) :
    clamp x = max (-0x8000000000000000) (min 0x7FFFFFFFFFFFFFFF x.roundAway) := by
  simp [clamp, isNaN_of_isFinite hx, isInfinite_of_isFinite hx]

theorem ofMicros?_eq_some_iff {micros : Int} : ofMicros? micros = some t ↔ micros = t.micros := by
  obtain ⟨m, hlow, hhigh⟩ := t
  unfold ofMicros?
  split_ifs with hrange
  · simp
  · refine iff_of_false (by rintro ⟨⟩) ?_
    rintro rfl
    exact hrange ⟨hlow, hhigh⟩

theorem decodeTimestamp_eq_ok_iff :
    Field.decodeTimestamp (.real x) = .ok t ↔ clamp (x.mul million) = t.micros := by
  rw [← ofMicros?_eq_some_iff, ← ofSeconds?, Field.decodeTimestamp, Field.decodeReal]
  cases hfound : ofSeconds? x with
  | none => simp [Except.bind, hfound]
  | some t' => simp [Except.bind, hfound]

theorem decode_encode_eq_ok_iff :
    Field.decode (Field.encode t) = .ok t' ↔ clamp (t.seconds.mul million) = t'.micros :=
  decodeTimestamp_eq_ok_iff

/-- A moment is read back as itself if its distance from the epoch is. -/
theorem clamp_eq_micros_iff (hx : x.isFinite = true)
    (hsign : x.isNegative = decide (t.micros < 0)) :
    clamp x = t.micros ↔ x.roundAway.natAbs = t.micros.natAbs := by
  have hlow := t.least_le
  have hhigh := t.le_greatest
  have hround := x.roundAway_eq
  rw [hsign] at hround
  rw [clamp_eq hx]
  obtain hneg | hpos := lt_or_ge t.micros 0
  · rw [if_pos (decide_eq_true hneg)] at hround
    omega
  · rw [if_neg (by simpa using hpos)] at hround
    omega

/-! ### The stored seconds -/

section Stored

variable {d e : Nat}

theorem approximates_seconds (hd : t.micros.natAbs < Nat.pow 2 d) (hd' : d ≤ 1023)
    (h : (ofInt t.micros).size < 2 ^ e * 1000000) (he : e ≤ 1023) :
    t.seconds.Approximates (decide (t.micros < 0)) ((ofInt t.micros).size / 1000000) e := by
  obtain ⟨hfinite, hsign, -⟩ := approximates_ofInt hd hd'
  have hpos : 0 < million.size := by
    rw [size_million]
    norm_num
  have hlt : (ofInt t.micros).size / million.size < 2 ^ e := by
    rw [size_million, div_lt_iff₀ (by norm_num)]
    exact h
  have happrox := approximates_div hfinite isFinite_million hpos hlt he
  rwa [hsign, isNegative_million, Bool.bne_false, size_million] at happrox

theorem approximates_product {negative : Bool} {r : ℚ} (hx : x.Approximates negative r e)
    (h : x.size * million.size < 2 ^ d) (hd : d ≤ 1023) :
    (x.mul million).Approximates negative (x.size * million.size) d := by
  have happrox := approximates_mul hx.finite isFinite_million h hd
  rwa [hx.sign, isNegative_million, Bool.bne_false] at happrox

end Stored

/-! ### Moments within `2 ^ 33` seconds of the epoch -/

/-- How much further from the epoch than the moment itself its stored seconds are, in
microseconds. -/
def excess (t : Timestamp) : ℚ := t.seconds.size * 1000000 - t.micros.natAbs

section Near

variable {e : Nat} (h : t.micros.natAbs < 2 ^ e * 1000000) (he : e ≤ 33)

include h he

/-- The microseconds are not rounded, so the seconds are rounded once only. -/
theorem approximates_seconds_of_near :
    t.seconds.Approximates (decide (t.micros < 0)) (t.micros.natAbs / 1000000) e := by
  have hpow : 2 ^ e ≤ 2 ^ 33 := Nat.pow_le_pow_right (by decide) he
  have hbound : t.micros.natAbs < Nat.pow 2 53 := by
    have hbits : Nat.pow 2 53 = 9007199254740992 := rfl
    omega
  have hsize : (ofInt t.micros).size = t.micros.natAbs := size_ofInt hbound
  have hlt : (t.micros.natAbs : ℚ) < 2 ^ e * 1000000 := by exact_mod_cast h
  have happrox := approximates_seconds hbound (by decide) (hsize.trans_lt hlt) (by omega)
  rwa [hsize] at happrox

theorem abs_excess_le : |t.excess| ≤ 2 ^ e / 2 ^ 54 * 1000000 := by
  have herror := (approximates_seconds_of_near h he).error
  have hexcess : t.excess = (t.seconds.size - t.micros.natAbs / 1000000) * 1000000 := by
    rw [excess]
    ring
  rw [hexcess, abs_mul, abs_of_pos (by norm_num : (0 : ℚ) < 1000000)]
  exact mul_le_mul_of_nonneg_right herror (by norm_num)

end Near

theorem product_eq (t : Timestamp) :
    t.seconds.size * million.size = t.micros.natAbs + t.excess := by
  rw [size_million, excess]
  ring

section Product

variable (h : t.micros.natAbs < 2 ^ 33 * 1000000)

include h

theorem abs_excess_lt : |t.excess| < 1 / 2 := by
  refine (abs_excess_le h le_rfl).trans_lt ?_
  norm_num

theorem natAbs_lt : (t.micros.natAbs : ℚ) + 1 / 2 < 2 ^ 53 := by
  have hcast : (t.micros.natAbs : ℚ) < 2 ^ 33 * 1000000 := by exact_mod_cast h
  linarith

theorem approximates_product_of_near {d : Nat} (hd : t.micros.natAbs + t.excess < 2 ^ d)
    (hd' : d ≤ 1023) :
    (t.seconds.mul million).Approximates (decide (t.micros < 0)) (t.micros.natAbs + t.excess)
      d := by
  rw [← product_eq] at hd ⊢
  exact approximates_product (approximates_seconds_of_near h le_rfl) hd hd'

/-- Such a moment is read back as itself if its distance from the epoch is. -/
theorem decode_encode_iff_natAbs :
    Field.decode (Field.encode t) = .ok t ↔
      (t.seconds.mul million).roundAway.natAbs = t.micros.natAbs := by
  have hexcess := (abs_lt.mp (abs_excess_lt h)).2
  have hlt : t.micros.natAbs + t.excess < 2 ^ 53 := by linarith [natAbs_lt h]
  have happrox := approximates_product_of_near h hlt (by decide)
  rw [decode_encode_eq_ok_iff, clamp_eq_micros_iff happrox.finite happrox.sign]

/-- Before `2 ^ 32` seconds both roundings together move a moment by less than half a
microsecond. -/
theorem decode_encode_of_lt (hlt : t.micros.natAbs < 2 ^ 32 * 1000000) :
    Field.decode (Field.encode t) = .ok t := by
  have hcast : (t.micros.natAbs : ℚ) < 2 ^ 32 * 1000000 := by exact_mod_cast hlt
  have hquarter : (2 : ℚ) ^ 32 / 2 ^ 54 * 1000000 < 1 / 4 := by norm_num
  have hexcess := abs_lt.mp ((abs_excess_le hlt (by decide)).trans_lt hquarter)
  have hproduct : (t.micros.natAbs : ℚ) + t.excess < 2 ^ 52 := by linarith
  have herror := abs_le.mp (approximates_product_of_near h hproduct (by decide)).error
  have hround : (2 : ℚ) ^ 52 / 2 ^ 54 = 1 / 4 := by norm_num
  rw [decode_encode_iff_natAbs h, natAbs_roundAway_eq_iff]
  constructor <;> linarith

/-- From `2 ^ 52` microseconds on the product is rounded to whole microseconds. -/
theorem decode_encode_of_le (hle : 2 ^ 52 ≤ t.micros.natAbs + t.excess) :
    Field.decode (Field.encode t) = .ok t := by
  have hexcess := abs_lt.mp (abs_excess_lt h)
  have hfinite := (approximates_seconds_of_near h le_rfl).finite
  have hscaled : t.seconds.size * million.size * 2 ^ 0 = t.micros.natAbs + t.excess := by
    rw [pow_zero, mul_one, product_eq]
  have hlt : t.micros.natAbs + t.excess < 2 ^ 53 := by linarith [natAbs_lt h]
  obtain ⟨num, den, hden, hratio, hsize⟩ := size_mul_of_binade (by decide) hfinite
    isFinite_million (hle.trans_eq hscaled.symm) (hscaled.trans_lt hlt)
  have hnear : nearestEven num den = t.micros.natAbs := by
    refine nearestEven_eq_of_abs_sub_lt hden ?_
    rw [hratio, hscaled, add_sub_cancel_left]
    exact abs_excess_lt h
  rw [decode_encode_iff_natAbs h, natAbs_roundAway_eq_iff, hsize, hnear, pow_zero, div_one]
  constructor <;> linarith

/-- Below `2 ^ 52` microseconds the product is rounded to half microseconds, and a half goes away
from the epoch. -/
theorem decode_encode_iff_of_lt (hlow : 2 ^ 51 ≤ t.micros.natAbs + t.excess)
    (hhigh : t.micros.natAbs + t.excess < 2 ^ 52) :
    Field.decode (Field.encode t) = .ok t ↔ t.excess ≤ 1 / 4 := by
  have hexcess := abs_lt.mp (abs_excess_lt h)
  have hfinite := (approximates_seconds_of_near h le_rfl).finite
  have hscaled : t.seconds.size * million.size * 2 ^ 1 = (t.micros.natAbs + t.excess) * 2 := by
    rw [pow_one, product_eq]
  have hlow' : 2 ^ 52 ≤ (t.micros.natAbs + t.excess) * 2 := by linarith
  have hhigh' : (t.micros.natAbs + t.excess) * 2 < 2 ^ 53 := by linarith
  obtain ⟨num, den, hden, hratio, hsize⟩ := size_mul_of_binade (by decide) hfinite
    isFinite_million (hlow'.trans_eq hscaled.symm) (hscaled.trans_lt hhigh')
  rw [hscaled] at hratio
  rw [pow_one] at hsize
  have hhalves := abs_le.mp (abs_nearestEven_sub_le num hden)
  have habove : 2 * t.micros.natAbs < nearestEven num den + 2 := by
    rw [hratio] at hhalves
    have hlt : (2 * t.micros.natAbs : ℚ) < nearestEven num den + 2 := by linarith
    exact_mod_cast hlt
  have heven := nearestEven_le_iff_of_even num hden (Nat.mul_mod_right 2 t.micros.natAbs)
  -- A quarter is a tie of half microseconds, and whole microseconds are the even ones.
  have hbelow : nearestEven num den ≤ 2 * t.micros.natAbs ↔ t.excess ≤ 1 / 4 := by
    rw [heven, hratio, Nat.cast_mul, Nat.cast_ofNat]
    constructor <;> intro hle <;> linarith
  rw [decode_encode_iff_natAbs h, natAbs_roundAway_eq_iff, hsize, ← hbelow]
  constructor
  · rintro ⟨-, hlt⟩
    have hlt' : (nearestEven num den : ℚ) < 2 * t.micros.natAbs + 1 := by linarith
    exact Nat.lt_succ_iff.mp (by exact_mod_cast hlt')
  · intro hle
    have hle' : (nearestEven num den : ℚ) ≤ 2 * t.micros.natAbs := by exact_mod_cast hle
    have habove' : (2 * t.micros.natAbs : ℚ) ≤ nearestEven num den + 1 := by
      exact_mod_cast Nat.lt_succ_iff.mp habove
    constructor <;> linarith

end Product

/-- A moment within `2 ^ 33` seconds of the epoch fails to read back as itself only between `2 ^ 32`
seconds and `2 ^ 52` microseconds, where the seconds may be off by more than a quarter of a
microsecond and the product is rounded to halves. -/
theorem decode_encode_iff (h : t.micros.natAbs < 2 ^ 33 * 1000000) :
    Field.decode (Field.encode t) = .ok t ↔
      t.micros.natAbs < 2 ^ 32 * 1000000 ∨ 2 ^ 52 ≤ t.micros.natAbs ∨ t.excess ≤ 1 / 4 := by
  have hexcess := abs_lt.mp (abs_excess_lt h)
  obtain hsmall | hlarge := Nat.lt_or_ge t.micros.natAbs (2 ^ 32 * 1000000)
  · exact iff_of_true (decode_encode_of_lt h hsmall) (.inl hsmall)
  have hcast : (2 ^ 32 * 1000000 : ℚ) ≤ t.micros.natAbs := by exact_mod_cast hlarge
  -- The binade is that of the product: stored seconds that are too close to the epoch may bring a
  -- moment from `2 ^ 52` microseconds on into the binade before.
  obtain hproduct | hproduct := lt_or_ge ((t.micros.natAbs : ℚ) + t.excess) (2 ^ 52)
  · have hproduct' : 2 ^ 51 ≤ (t.micros.natAbs : ℚ) + t.excess := by linarith
    rw [decode_encode_iff_of_lt h hproduct' hproduct]
    constructor
    · exact fun hle => .inr (.inr hle)
    · rintro (hlt | hle | hle)
      · omega
      · have hcast : (2 ^ 52 : ℚ) ≤ t.micros.natAbs := by exact_mod_cast hle
        linarith
      · exact hle
  · refine iff_of_true (decode_encode_of_le h hproduct) (.inr (.inl ?_))
    have hlt : (2 ^ 52 : ℚ) < t.micros.natAbs + 1 := by linarith
    have hlt' : 2 ^ 52 < t.micros.natAbs + 1 := by exact_mod_cast hlt
    exact Nat.lt_succ_iff.mp hlt'

/-! ### All moments -/

/-- The microseconds, the seconds and the product are rounded by 512 microseconds, half a
millisecond and 512 microseconds at most. -/
theorem product_near (t : Timestamp) :
    (t.seconds.mul million).isFinite = true ∧
      (t.seconds.mul million).isNegative = decide (t.micros < 0) ∧
      |(t.seconds.mul million).size - t.micros.natAbs| < 1512 + 1 / 2 := by
  have hlow := t.least_le
  have hhigh := t.le_greatest
  have hmicros : (t.micros.natAbs : ℚ) ≤ 8334601228800000000 := by
    have hle : t.micros.natAbs ≤ 8334601228800000000 := by omega
    exact_mod_cast hle
  have hbits : t.micros.natAbs < Nat.pow 2 63 := by
    have hpow : Nat.pow 2 63 = 9223372036854775808 := rfl
    omega
  have hinteger := abs_le.mp (approximates_ofInt hbits (by decide)).error
  have hbinade : (2 : ℚ) ^ 63 / 2 ^ 54 = 512 := by norm_num
  have hseconds := approximates_seconds (e := 43) hbits (by decide) (by linarith) (by decide)
  have hquotient := abs_le.mp hseconds.error
  have hbinade' : (2 : ℚ) ^ 43 / 2 ^ 54 = 1 / 2048 := by norm_num
  have hlt : t.seconds.size * million.size < 2 ^ 63 := by
    rw [size_million]
    linarith
  have happrox := approximates_product hseconds hlt (by decide)
  have hproduct := abs_le.mp happrox.error
  rw [size_million] at hproduct
  refine ⟨happrox.finite, happrox.sign, abs_lt.mpr ?_⟩
  constructor <;> linarith

/-- A moment that is not within 1512 microseconds of the ends of the calendar reads back, and as one
that is at most as far from it. -/
theorem exists_decode_encode (hlow : -8334601228800000000 + 1512 ≤ t.micros)
    (hhigh : t.micros ≤ 8210266876799999999 - 1512) :
    ∃ t' : Timestamp, Field.decode (Field.encode t) = .ok t' ∧
      (t'.micros - t.micros).natAbs ≤ 1512 := by
  obtain ⟨hfinite, hsign, hnear⟩ := t.product_near
  obtain ⟨hbelow, habove⟩ := abs_lt.mp hnear
  obtain ⟨n, hn⟩ : ∃ n, (t.seconds.mul million).roundAway.natAbs = n := ⟨_, rfl⟩
  obtain ⟨hle, hlt⟩ := natAbs_roundAway_eq_iff.mp hn
  have hmost : (n : ℚ) < t.micros.natAbs + 1513 := by linarith
  have hmost' : n < t.micros.natAbs + 1513 := by exact_mod_cast hmost
  have hleast : (t.micros.natAbs : ℚ) < n + 1513 := by linarith
  have hleast' : t.micros.natAbs < n + 1513 := by exact_mod_cast hleast
  have hround := roundAway_eq (t.seconds.mul million)
  rw [hsign, hn] at hround
  obtain ⟨micros, hclamp⟩ : ∃ micros, clamp (t.seconds.mul million) = micros := ⟨_, rfl⟩
  have hclose : (micros - t.micros).natAbs ≤ 1512 := by
    rw [← hclamp, clamp_eq hfinite, hround]
    obtain hneg | hpos := lt_or_ge t.micros 0
    · rw [if_pos (decide_eq_true hneg)]
      omega
    · rw [if_neg (by simpa using hpos)]
      omega
  have hmin : -8334601228800000000 ≤ micros := by omega
  have hmax : micros ≤ 8210266876799999999 := by omega
  exact ⟨⟨micros, hmin, hmax⟩, decode_encode_eq_ok_iff.mpr hclamp, hclose⟩

/-- **Which moments read back.**  Within `2 ^ 33` seconds of the epoch, a moment reads back as
itself unless it lies between `2 ^ 32` seconds and `2 ^ 52` microseconds and its stored seconds are
more than a quarter of a microsecond too far from the epoch.  Any moment that is not within 1512
microseconds of the ends of the calendar reads back as one at most as far from it. -/
theorem keeps_micros (t : Timestamp) :
    (t.micros.natAbs < 2 ^ 33 * 1000000 →
      (Field.decode (Field.encode t) = .ok t ↔
        t.micros.natAbs < 2 ^ 32 * 1000000 ∨ 2 ^ 52 ≤ t.micros.natAbs ∨ t.excess ≤ 1 / 4)) ∧
      (-8334601228800000000 + 1512 ≤ t.micros → t.micros ≤ 8210266876799999999 - 1512 →
        ∃ t' : Timestamp, Field.decode (Field.encode t) = .ok t' ∧
          (t'.micros - t.micros).natAbs ≤ 1512) :=
  ⟨decode_encode_iff, exists_decode_encode⟩

theorem keeps_micros_2023 :
    Field.decode (Field.encode { micros := 1700000000123456 : Timestamp }) =
        .ok { micros := 1700000000123456 : Timestamp } ∧
      ∃ t' : Timestamp,
        Field.decode (Field.encode { micros := 4294967296000011 : Timestamp }) = .ok t' ∧
          (t'.micros - 4294967296000011).natAbs ≤ 1512 := by
  obtain ⟨hexact, -⟩ := keeps_micros { micros := 1700000000123456 }
  obtain ⟨-, hnear⟩ := keeps_micros { micros := 4294967296000011 }
  exact ⟨(hexact (by decide)).mpr (.inl (by decide)), hnear (by decide) (by decide)⟩

/-- Eleven microseconds after `2 ^ 32` seconds, in the year 2106, the product is half a microsecond
too large and is read back as the microsecond after. -/
theorem decode_encode_2106 :
    Field.decode (Field.encode { micros := 4294967296000011 : Timestamp }) =
      .ok { micros := 4294967296000012 : Timestamp } := by
  rw [decode_encode_eq_ok_iff]
  decide +kernel

end Timestamp

end LiveQuery
