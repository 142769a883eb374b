import LiveQuery.Proofs.Rounding
import LiveQuery.Value.Hashing
import Mathlib.Data.Int.ConditionallyCompleteOrder
import Mathlib.Order.Monotone.Basic
import Mathlib.Order.WithBot

/-!
# The order of values

Values are ordered by storage class and then by content, so whatever holds of one content does not
say anything about another.  Transitivity is not shown for each combination of storage classes: the
order is that of a row of keys, one for the storage class and one for each kind of content, which
is there or not (`Value.compare_eq`).  Orders by a key and lexicographic orders are orders already.

Two of the contents are compared by something else than what they mean.  Texts may be compared by
characters or by bytes, which agree because UTF-8 was made so: of two characters the greater has
the greater bytes at the first place where they differ.  Reals are compared as integers.  Magnitudes
grow with the numbers, so this is the order of numbers, in which the two zeros would be equal and
the infinities are beyond all others.

## Main definitions

* `codePoints`: the code points of a text.
* `Binary64.flipped`: the integer as which a word is compared.
* `Binary64.number`: the number that a word stands for.

## Main results

* `compare_codePoints`, `Utf8.compare_encode`: texts are in the order of their code points and in
  that of their bytes.
* `Binary64.compare_flipped`, `Binary64.compare_eq_lt_iff`: reals are in the order of these integers
  and in that of the numbers.
* `Value.hashBytes_inj`: different values feed a hasher with different bytes.
* `Value.total_order`: the order of values.
-/

namespace LiveQuery

open Std

/-! ### Orders by an image -/

/-- An image that keeps what is less keeps the order. -/
theorem compare_map {α β : Type} [Ord α] [OrientedOrd α] [LawfulEqOrd α] [Ord β] [OrientedOrd β]
    {f : α → β} (h : ∀ a b, compare a b = .lt → compare (f a) (f b) = .lt) (a b : α) :
    compare (f a) (f b) = compare a b := by
  cases hab : compare a b with
  | lt => exact h a b hab
  | eq =>
    rw [LawfulEqOrd.eq_of_compare hab]
    exact ReflOrd.compare_self
  | gt => exact OrientedCmp.gt_of_lt (h b a (OrientedCmp.lt_of_gt hab))

theorem compare_append_left {β : Type} [Ord β] [ReflOrd β] (l u v : List β) :
    compare (l ++ u) (l ++ v) = compare u v := by
  induction l with
  | nil => rfl
  | cons b l ih => rw [List.cons_append, List.cons_append, List.compare_cons_cons,
      ReflOrd.compare_self, Ordering.eq_then, ih]

/-! ### Texts -/

/-- Texts are ordered as the codes of their characters are, one behind the other, if codes are never
empty and the code of a lesser character is less whatever follows. -/
theorem compare_flatMap {β : Type} [Ord β] [OrientedOrd β] {code : Char → List β}
    (hne : ∀ c, code c ≠ [])
    (hlt : ∀ c d, c < d → ∀ u v, compare (code c ++ u) (code d ++ v) = .lt) (s t : String) :
    compare (s.toList.flatMap code) (t.toList.flatMap code) = compare s t := by
  have hlist {l l' : List Char} (h : l < l') :
      compare (l.flatMap code) (l'.flatMap code) = .lt := by
    induction l generalizing l' with
    | nil =>
      cases l' with
      | nil => cases h
      | cons d l' =>
        obtain ⟨b, bs, hd⟩ := List.exists_cons_of_ne_nil (hne d)
        rw [List.flatMap_cons, hd]
        rfl
    | cons c l ih =>
      cases l' with
      | nil => cases h
      | cons d l' =>
        rw [List.flatMap_cons, List.flatMap_cons]
        rcases List.cons_lt_cons_iff.mp h with hcd | ⟨rfl, hrest⟩
        · exact hlt c d hcd _ _
        · rw [compare_append_left]
          exact ih hrest
  refine compare_map (f := fun s : String => s.toList.flatMap code) (fun s t hst => hlist ?_) s t
  exact String.lt_iff.mp (compareOfLessAndEq_eq_lt.mp hst)

/-- The code points of a text. -/
def codePoints (s : String) : List Nat := s.toList.map Char.toNat

theorem compare_codePoints (s t : String) :
    compare (codePoints s) (codePoints t) = compare s t := by
  rw [codePoints, codePoints, List.map_eq_flatMap, List.map_eq_flatMap]
  refine compare_flatMap (fun c => List.cons_ne_nil _ _) (fun c d hcd u v => ?_) s t
  rw [List.singleton_append, List.singleton_append, List.compare_cons_cons, Ordering.then_eq_lt]
  exact Or.inl (Nat.compare_eq_lt.mpr hcd)

theorem compare_ofNat_cons (m n : Nat) (u v : List UInt8) :
    compare (UInt8.ofNat m :: u) (UInt8.ofNat n :: v) = .lt ↔
      m % 256 < n % 256 ∨ m % 256 = n % 256 ∧ compare u v = .lt := by
  rw [List.compare_cons_cons, Ordering.then_eq_lt, compare_eq_lt, LawfulEqOrd.compare_eq_iff_eq,
    UInt8.lt_iff_toNat_lt, ← UInt8.toNat_inj, UInt8.toNat_ofNat', UInt8.toNat_ofNat']

theorem Utf8.compare_utf8EncodeChar {c d : Char} (h : c < d) (u v : List UInt8) :
    compare (String.utf8EncodeChar c ++ u) (String.utf8EncodeChar d ++ v) = .lt := by
  have hlt : c.val.toNat < d.val.toNat := h
  have hlast : d.val.toNat < 0x110000 := by
    rcases d.valid with hd | hd
    · exact Nat.lt_trans hd (by decide)
    · exact hd.2
  unfold String.utf8EncodeChar
  generalize c.val.toNat = m, d.val.toNat = n at hlt hlast
  -- Digits of six bits, each taken from what is left of the one before it.
  have hdigits (k : Nat) : k / 4096 = k / 64 / 64 ∧ k / 262144 = k / 64 / 64 / 64 := by
    simp only [Nat.div_div_eq_div_mul, true_and]
  have hlow (k : Nat) : (k % 64 + 128) % 256 = k % 64 + 128 := by omega
  simp only [hdigits]
  split_ifs <;> simp only [List.cons_append, compare_ofNat_cons, hlow] <;> omega

theorem Utf8.compare_encode (s t : String) : compare (encode s) (encode t) = compare s t :=
  compare_flatMap (fun _ => String.utf8EncodeChar_ne_nil) (fun _ _ => compare_utf8EncodeChar) s t

theorem Utf8.encode_inj {s t : String} : encode s = encode t ↔ s = t := by
  rw [← LawfulEqOrd.compare_eq_iff_eq, compare_encode, LawfulEqOrd.compare_eq_iff_eq]

/-! ### Reals -/

namespace Binary64

variable {x y : Binary64}

theorem eq_ofMagnitude_iff {negative : Bool} {c : Nat} (h : c < signWeight) :
    x = ofMagnitude negative c ↔ x.isNegative = negative ∧ x.magnitude = c := by
  constructor
  · rintro rfl
    exact ⟨isNegative_ofMagnitude h, magnitude_ofMagnitude h⟩
  · rintro ⟨rfl, rfl⟩
    exact (ofMagnitude_magnitude x).symm

/-- No two words have the same place in the total order. -/
theorem orderKey_inj : x.orderKey = y.orderKey ↔ x = y := by
  refine ⟨fun h => ?_, congrArg orderKey⟩
  have hparts : x.isNegative = y.isNegative ∧ x.magnitude = y.magnitude := by
    unfold orderKey at h
    split_ifs at h with hx hy hy
    · exact ⟨hx.trans hy.symm, by omega⟩
    · omega
    · omega
    · exact ⟨(Bool.eq_false_of_not_eq_true hx).trans (Bool.eq_false_of_not_eq_true hy).symm,
        by omega⟩
  rw [← ofMagnitude_magnitude x, ← ofMagnitude_magnitude y, hparts.1, hparts.2]

instance : TransOrd Binary64 := inferInstanceAs (TransCmp (compareOn orderKey))

instance : LawfulEqOrd Binary64 where
  compare_self := ReflCmp.compare_self
  eq_of_compare {x y} h := by
    have h' : compare x.orderKey y.orderKey = .eq := h
    exact orderKey_inj.mp (LawfulEqOrd.eq_of_compare h')

/-- Flipping all of so many bits. -/
theorem xor_two_pow_sub_one {m n : Nat} (h : m < 2 ^ n) : m ^^^ (2 ^ n - 1) = 2 ^ n - 1 - m := by
  have hnot := BitVec.toNat_not (x := BitVec.ofNat n m)
  rw [← BitVec.xor_allOnes, BitVec.toNat_xor, BitVec.toNat_allOnes, BitVec.toNat_ofNat,
    Nat.mod_eq_of_lt h] at hnot
  exact hnot

/-- Flipping the bits behind the highest one, which is set. -/
theorem xor_two_pow_sub_one_of_le {m n : Nat} (hle : 2 ^ n ≤ m) (hlt : m < 2 * 2 ^ n) :
    m ^^^ (2 ^ n - 1) = 2 * 2 ^ n - 1 - m % 2 ^ n := by
  have hpos : 0 < 2 ^ n := Nat.two_pow_pos n
  have hhigh : (m ^^^ (2 ^ n - 1)) / 2 ^ n = 1 := by
    rw [Nat.xor_div_two_pow, Nat.div_eq_of_lt (Nat.sub_one_lt hpos.ne'), Nat.xor_zero]
    exact Nat.div_eq_of_lt_le (by omega) (by omega)
  have hlow : (m ^^^ (2 ^ n - 1)) % 2 ^ n = 2 ^ n - 1 - m % 2 ^ n := by
    rw [Nat.xor_mod_two_pow, Nat.mod_eq_of_lt (Nat.sub_one_lt hpos.ne'),
      xor_two_pow_sub_one (Nat.mod_lt m hpos)]
  have hmod := Nat.mod_lt m hpos
  rw [← Nat.div_add_mod (m ^^^ (2 ^ n - 1)) (2 ^ n), hhigh, hlow]
  omega

/-- The word as a signed integer, with the bits behind the sign bit flipped if it is set. -/
def flipped (x : Binary64) : Int64 :=
  let word := x.bits.toInt64
  word ^^^ ((word >>> 63).toUInt64 >>> 1).toInt64

/-- The order of words is that of these integers. -/
theorem toInt_flipped (x : Binary64) : x.flipped.toInt = x.orderKey := by
  obtain ⟨⟨word⟩⟩ := x
  have hlt : word.toNat < 2 * 2 ^ 63 := word.isLt
  have hmsb : word.msb = decide (2 ^ 63 ≤ word.toNat) := BitVec.msb_eq_decide word
  change (word ^^^ word.sshiftRight 63 >>> 1).toInt =
    if decide (2 ^ 63 ≤ word.toNat) = true then -((word.toNat % 2 ^ 63 : Nat) : Int) - 1
    else ((word.toNat % 2 ^ 63 : Nat) : Int)
  have hmod := Nat.mod_lt word.toNat (Nat.two_pow_pos 63)
  by_cases hneg : 2 ^ 63 ≤ word.toNat
  · have hmask : (word.sshiftRight 63 >>> 1).toNat = 2 ^ 63 - 1 := by
      have hones : (2 ^ 64 - 1 - word.toNat) >>> 63 = 0 := by
        rw [Nat.shiftRight_eq_div_pow]
        exact Nat.div_eq_of_lt (by omega)
      rw [BitVec.toNat_ushiftRight,
        BitVec.toNat_sshiftRight_of_msb_true (hmsb.trans (decide_eq_true hneg)), hones]
      rfl
    rw [if_pos (decide_eq_true hneg), BitVec.toInt_eq_toNat_cond, BitVec.toNat_xor, hmask,
      xor_two_pow_sub_one_of_le hneg hlt, if_neg (by omega)]
    omega
  · have hmask : word.sshiftRight 63 >>> 1 = 0#64 := by
      apply BitVec.eq_of_toNat_eq
      rw [BitVec.toNat_ushiftRight,
        BitVec.toNat_sshiftRight_of_msb_false (hmsb.trans (decide_eq_false hneg)),
        Nat.shiftRight_eq_div_pow, Nat.div_eq_of_lt (by omega)]
      rfl
    rw [if_neg (by simpa using hneg), hmask, BitVec.xor_zero, BitVec.toInt_eq_toNat_cond,
      if_pos (by omega), Nat.mod_eq_of_lt (by omega)]

theorem compare_flipped (x y : Binary64) : compare x.flipped y.flipped = compare x y := by
  refine compare_map (f := flipped) (fun x y hxy => ?_) x y
  rw [compare_eq_lt, Int64.lt_iff_toInt_lt, toInt_flipped, toInt_flipped]
  exact compare_eq_lt.mp hxy

/-- Greater magnitudes belong to greater numbers. -/
theorem strictMono_multipleOf : StrictMono multipleOf := by
  refine strictMono_nat_of_lt_succ fun n => ?_
  obtain ⟨k, q, rfl, hk, hq⟩ : ∃ k q, n = k * exponentUnit + q ∧ (k = 0 ∨ exponentUnit ≤ q) ∧
      q < 2 * exponentUnit := by
    have hunit : 0 < exponentUnit := by decide
    have hdiv := Nat.div_add_mod n exponentUnit
    have hmod := Nat.mod_lt n hunit
    rw [Nat.mul_comm] at hdiv
    obtain hzero | ⟨k, hsucc⟩ : n / exponentUnit = 0 ∨ ∃ k, n / exponentUnit = k + 1 := by
      cases n / exponentUnit with
      | zero => exact Or.inl rfl
      | succ k => exact Or.inr ⟨k, rfl⟩
    · rw [hzero, Nat.zero_mul] at hdiv
      exact ⟨0, n % exponentUnit, by omega, Or.inl rfl, by omega⟩
    · rw [hsucc, Nat.succ_mul] at hdiv
      exact ⟨k, exponentUnit + n % exponentUnit, by omega, Or.inr (Nat.le_add_right _ _), by omega⟩
  have hk' : k = 0 ∨ exponentUnit ≤ q + 1 := hk.imp_right Nat.le_succ_of_le
  rw [multipleOf_steps hk hq.le, Nat.add_assoc, multipleOf_steps hk' hq]
  exact Nat.mul_lt_mul_of_pos_right (Nat.lt_succ_self q) (Nat.two_pow_pos k)

theorem unsignedMultiple_lt : x.unsignedMultiple < y.unsignedMultiple ↔ x.magnitude < y.magnitude :=
  strictMono_multipleOf.lt_iff_lt

theorem unsignedMultiple_eq_zero : x.unsignedMultiple = 0 ↔ x.magnitude = 0 :=
  strictMono_multipleOf.injective.eq_iff (b := 0)

/-- Words are in the order of their multiples, but for `-0.0` before `0.0`. -/
theorem orderKey_lt_iff : x.orderKey < y.orderKey ↔
    x.multiple < y.multiple ∨ x = ofMagnitude true 0 ∧ y = ofMagnitude false 0 := by
  have hlt := unsignedMultiple_lt (x := x) (y := y)
  have hgt := unsignedMultiple_lt (x := y) (y := x)
  have hx := unsignedMultiple_eq_zero (x := x)
  have hy := unsignedMultiple_eq_zero (x := y)
  have hzeros : x = ofMagnitude true 0 ∧ y = ofMagnitude false 0 ↔
      (x.isNegative = true ∧ x.magnitude = 0) ∧ y.isNegative = false ∧ y.magnitude = 0 := by
    rw [eq_ofMagnitude_iff (by decide), eq_ofMagnitude_iff (by decide)]
  rw [hzeros]
  unfold orderKey multiple
  cases x.isNegative <;> cases y.isNegative <;>
    simp only [if_true, if_false, Bool.false_eq_true, Bool.true_eq_false, true_and, false_and,
      and_false, or_false] <;>
    omega

/-- The number that a word stands for, as a multiple of the least positive one.  The infinities are
beyond all others.  A NaN stands for none; nothing is said about it. -/
def number (x : Binary64) : WithBot (WithTop Int) :=
  if x.isFinite then ((x.multiple : WithTop Int) : WithBot (WithTop Int))
  else if x.isNegative then ⊥ else ⊤

theorem multiple_le (x : Binary64) : x.multiple ≤ x.unsignedMultiple := by
  unfold multiple
  split <;> omega

theorem neg_le_multiple (x : Binary64) : -(x.unsignedMultiple : Int) ≤ x.multiple := by
  unfold multiple
  split <;> omega

theorem magnitude_of_not_finite (h : x.isNaN = false) (hinfinite : x.isFinite = false) :
    x.magnitude = infiniteMagnitude :=
  Nat.le_antisymm (Nat.le_of_not_lt (of_decide_eq_false h))
    (Nat.le_of_not_lt (of_decide_eq_false hinfinite))

theorem unsignedMultiple_lt_of_isFinite (hx : x.isFinite = true) (hy : y.isNaN = false)
    (hinfinite : y.isFinite = false) : x.unsignedMultiple < y.unsignedMultiple := by
  rw [unsignedMultiple_lt, magnitude_of_not_finite hy hinfinite]
  exact of_decide_eq_true hx

/-- What the words of the infinities are multiples of is beyond all other numbers, too. -/
theorem number_lt_iff (hx : x.isNaN = false) (hy : y.isNaN = false) :
    x.number < y.number ↔ x.multiple < y.multiple := by
  cases hfx : x.isFinite <;> cases hfy : y.isFinite <;>
    simp only [number, hfx, hfy, if_true, Bool.false_eq_true, if_false]
  case true.true => exact WithBot.coe_lt_coe.trans WithTop.coe_lt_coe
  case true.false =>
    have hlt := unsignedMultiple_lt_of_isFinite hfx hy hfy
    have hlow := neg_le_multiple x
    have hhigh := multiple_le x
    by_cases hneg : y.isNegative = true
    · rw [if_pos hneg, multiple.eq_def y, if_pos hneg]
      exact iff_of_false not_lt_bot (by omega)
    · rw [if_neg hneg, multiple.eq_def y, if_neg hneg]
      exact iff_of_true (WithBot.coe_lt_coe.mpr (WithTop.coe_lt_top _)) (by omega)
  case false.true =>
    have hlt := unsignedMultiple_lt_of_isFinite hfy hx hfx
    have hlow := neg_le_multiple y
    have hhigh := multiple_le y
    by_cases hneg : x.isNegative = true
    · rw [if_pos hneg, multiple.eq_def x, if_pos hneg]
      exact iff_of_true (WithBot.bot_lt_coe _) (by omega)
    · rw [if_neg hneg, multiple.eq_def x, if_neg hneg]
      exact iff_of_false not_top_lt (by omega)
  case false.false =>
    have hmagnitude := magnitude_of_not_finite hy hfy
    have hsame : x.unsignedMultiple = y.unsignedMultiple :=
      congrArg multipleOf ((magnitude_of_not_finite hx hfx).trans hmagnitude.symm)
    have hpos : y.unsignedMultiple ≠ 0 := by
      rw [Ne, unsignedMultiple_eq_zero, hmagnitude]
      decide
    unfold multiple
    rw [hsame]
    cases x.isNegative <;> cases y.isNegative <;>
      simp only [if_true, if_false, Bool.false_eq_true, lt_self_iff_false]
    · exact iff_of_false not_lt_bot (by omega)
    · exact iff_of_true bot_lt_top (by omega)

/-- Reals that are no NaNs are in the order of the numbers, but for `-0.0` before `0.0`. -/
theorem compare_eq_lt_iff (hx : x.isNaN = false) (hy : y.isNaN = false) : compare x y = .lt ↔
    x.number < y.number ∨ x = ofMagnitude true 0 ∧ y = ofMagnitude false 0 := by
  rw [number_lt_iff hx hy, ← orderKey_lt_iff]
  exact compare_eq_lt (a := x.orderKey) (b := y.orderKey)

end Binary64

/-! ### Hashing -/

theorem length_lowBytes (count n : Nat) : (lowBytes count n).length = count := by
  induction count generalizing n with
  | zero => rfl
  | succ count ih => exact congrArg (· + 1) (ih (n / 256))

theorem mod_eq_of_lowBytes {count n n' : Nat} (h : lowBytes count n = lowBytes count n') :
    n % 256 ^ count = n' % 256 ^ count := by
  induction count generalizing n n' with
  | zero => rw [Nat.pow_zero, Nat.mod_one, Nat.mod_one]
  | succ count ih =>
    obtain ⟨hlow, hrest⟩ := List.cons_eq_cons.mp h
    have hdigit := congrArg UInt8.toNat hlow
    rw [UInt8.toNat_ofNat', UInt8.toNat_ofNat'] at hdigit
    rw [Nat.pow_succ', Nat.mod_mul, Nat.mod_mul, ih hrest]
    omega

theorem wordBytes_inj {w w' : UInt64} : wordBytes w = wordBytes w' ↔ w = w' := by
  refine ⟨fun h => ?_, congrArg wordBytes⟩
  have hmod := mod_eq_of_lowBytes h
  have hw := w.toNat_lt
  have hw' := w'.toNat_lt
  rw [← UInt64.toNat_inj]
  omega

theorem length_wordBytes (w : UInt64) : (wordBytes w).length = 8 := length_lowBytes 8 _

namespace Value

/-- No two values feed a hasher with the same bytes. -/
theorem hashBytes_inj {a b : Value} : a.hashBytes = b.hashBytes ↔ a = b := by
  refine ⟨fun h => ?_, congrArg hashBytes⟩
  obtain ⟨hrank, hcontent⟩ := List.cons_eq_cons.mp h
  cases a <;> cases b <;> try cases hrank
  case null.null => rfl
  case integer.integer i j =>
    have hword : i.toUInt64 = j.toUInt64 := wordBytes_inj.mp hcontent
    exact congrArg (fun word => integer (.ofUInt64 word)) hword
  case real.real x y =>
    have hword : x.bits = y.bits := wordBytes_inj.mp hcontent
    exact congrArg (fun bits => real ⟨bits⟩) hword
  case text.text s t =>
    have hbytes : Utf8.encode s = Utf8.encode t := List.append_cancel_right hcontent
    rw [Utf8.encode_inj.mp hbytes]
  case blob.blob c d =>
    obtain ⟨-, hbytes⟩ := List.append_inj hcontent (by rw [length_wordBytes, length_wordBytes])
    rw [hbytes]

/-! ### The order of values -/

/-- The order of values as that of their storage classes and of what they are, storage class by
storage class. -/
theorem compare_eq (a b : Value) : compare a b =
    compareLex (compareOn rank) (compareLex (compareOn asInteger?) (compareLex (compareOn asReal?)
      (compareLex (compareOn asText?) (compareOn asBlob?)))) a b := by
  cases a <;> cases b <;> try rfl
  case integer.integer i j => exact Ordering.then_eq.symm
  case real.real x y => exact Ordering.then_eq.symm
  case text.text s t => exact Ordering.then_eq.symm

instance : TransOrd Value where
  eq_swap {a b} := by
    rw [compare_eq, compare_eq]
    exact OrientedCmp.eq_swap
  isLE_trans {a b c} hab hbc := by
    rw [compare_eq] at hab hbc ⊢
    exact TransCmp.isLE_trans hab hbc

instance : LawfulEqOrd Value where
  compare_self {a} := by
    rw [compare_eq]
    exact ReflCmp.compare_self
  eq_of_compare {a b} h := by
    rw [compare_eq] at h
    simp only [compareLex, compareOn, Ordering.then_eq_eq, LawfulEqOrd.compare_eq_iff_eq] at h
    obtain ⟨hrank, hinteger, hreal, htext, hblob⟩ := h
    cases a <;> cases b <;> simp_all [rank, asInteger?, asReal?, asText?, asBlob?]

/-- Values of different storage classes are in the order of these. -/
theorem compare_of_rank_lt {a b : Value} (h : a.rank < b.rank) : compare a b = .lt := by
  rw [compare_eq, compareLex, compareOn, Nat.compare_eq_lt.mpr h]
  rfl

/-- **The order of values.**  It is total.  Values are equal in it if they are the same, reals if
their words are, and exactly then they feed a hasher with the same bytes.  Nulls come first, and
then integers, reals, texts and blobs.  Reals that are no NaNs are in the order of the numbers, with
`-0.0` before `0.0`, and texts in that of their bytes, which is that of their code points. -/
theorem total_order :
    ((∀ a b : Value, (compare a b).isLE = true ∨ (compare b a).isLE = true) ∧
      (∀ a b : Value, compare b a = (compare a b).swap) ∧
      (∀ a b c : Value, (compare a b).isLE = true → (compare b c).isLE = true →
        (compare a c).isLE = true)) ∧
    ((∀ a b : Value, compare a b = .eq ↔ a = b) ∧
      (∀ x y, compare (real x) (real y) = .eq ↔ x.bits = y.bits) ∧
      ∀ a b : Value, a.hashBytes = b.hashBytes ↔ compare a b = .eq) ∧
    (∀ i x s b, [null, integer i, real x, text s, blob b].Pairwise (compare · · = .lt)) ∧
    (∀ x y : Binary64, x.isNaN = false → y.isNaN = false →
      (compare (real x) (real y) = .lt ↔
        x.number < y.number ∨ x = .ofMagnitude true 0 ∧ y = .ofMagnitude false 0)) ∧
    ∀ s t, compare (text s) (text t) = compare (Utf8.encode s) (Utf8.encode t) ∧
      compare (text s) (text t) = compare (codePoints s) (codePoints t) := by
  refine ⟨⟨fun a b => ?_, fun a b => OrientedCmp.eq_swap, fun a b c => TransCmp.isLE_trans⟩,
    ⟨fun a b => LawfulEqOrd.compare_eq_iff_eq, fun x y => ?_, fun a b => ?_⟩,
    fun i x s b => ?_, fun x y hx hy => Binary64.compare_eq_lt_iff hx hy,
    fun s t => ⟨(Utf8.compare_encode s t).symm, (compare_codePoints s t).symm⟩⟩
  · have hswap : compare b a = (compare a b).swap := OrientedCmp.eq_swap
    rw [hswap]
    cases compare a b <;> decide
  · rw [LawfulEqOrd.compare_eq_iff_eq, real.injEq]
    exact Binary64.mk.injEq .. ▸ Iff.rfl
  · rw [hashBytes_inj, LawfulEqOrd.compare_eq_iff_eq]
  · have hranks : [null, integer i, real x, text s, blob b].Pairwise (rank · < rank ·) := by
      simp [rank]
    exact hranks.imp compare_of_rank_lt

/-- The zeros are in this order, and a blob comes behind a null. -/
theorem total_order_zeros :
    compare (real (.ofMagnitude true 0)) (real (.ofMagnitude false 0)) = .lt ∧
      (compare null (blob [1])).isLE = true := by
  obtain ⟨⟨-, -, htrans⟩, -, -, hreals, -⟩ := total_order
  exact ⟨(hreals _ _ (by decide) (by decide)).mpr (Or.inr ⟨rfl, rfl⟩),
    htrans null (text "b") (blob [1]) (by decide) (by decide)⟩

end Value

end LiveQuery
