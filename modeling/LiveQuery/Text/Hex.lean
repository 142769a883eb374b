/-!
# Hexadecimal text

Bytes are written as two digits each, the high one first, in lower case.  Both cases are read.

## Main definitions

* `Hex.encode`, `Hex.decode`: between bytes and digits.

## Main results

* `Hex.decode_encode`: written bytes read back.
* `Hex.decode_eq_some_iff`: nothing else is read, but for the case of the digits.
-/

namespace LiveQuery.Hex

/-- The digit of a number below sixteen. -/
def digit (n : Nat) : Char := "0123456789abcdef".toList.getD n '0'

/-- The value of a digit, in either case. -/
def digitValue (c : Char) : Option Nat :=
  if '0' ≤ c ∧ c ≤ '9' then some (c.toNat - '0'.toNat)
  else if 'a' ≤ c ∧ c ≤ 'f' then some (c.toNat - 'a'.toNat + 10)
  else if 'A' ≤ c ∧ c ≤ 'F' then some (c.toNat - 'A'.toNat + 10)
  else none

/-- Two digits for every byte. -/
def encode (bytes : List UInt8) : List Char :=
  bytes.flatMap fun b => [digit (b.toNat / 16), digit (b.toNat % 16)]

/-- The bytes of a text of digit pairs. -/
def decode : List Char → Option (List UInt8)
  | [] => some []
  | [_] => none
  | high :: low :: rest =>
    match digitValue high, digitValue low with
    | some h, some l => (decode rest).map (UInt8.ofNat (h * 16 + l) :: ·)
    | _, _ => none

theorem digitValue_digit : ∀ n < 16, digitValue (digit n) = some n := by decide

/-- Written bytes read back. -/
theorem decode_encode (bytes : List UInt8) : decode (encode bytes) = some bytes := by
  induction bytes with
  | nil => rfl
  | cons b rest ih =>
    have hb : b.toNat < 256 := b.toNat_lt
    have hh := digitValue_digit (b.toNat / 16) (by omega)
    have hl := digitValue_digit (b.toNat % 16) (by omega)
    have hv : UInt8.ofNat (b.toNat / 16 * 16 + b.toNat % 16) = b := by
      rw [Nat.div_add_mod']
      simp
    simp only [encode] at ih
    simp [encode, decode, hh, hl, ih, hv]

/-- Digits are characters of the basic Latin alphabet. -/
theorem digitValue_eq_none {c : Char} (h : 128 ≤ c.toNat) : digitValue c = none := by
  have hnot {low high : Char} (hhigh : high.toNat < 128) : ¬ (low ≤ c ∧ c ≤ high) := fun hc =>
    absurd (Nat.lt_of_le_of_lt (show c.toNat ≤ high.toNat from hc.2) hhigh) (Nat.not_lt.mpr h)
  rw [digitValue, if_neg (hnot (by decide)), if_neg (hnot (by decide)), if_neg (hnot (by decide))]

/-- Digits are read in either case. -/
theorem digitValue_eq_some_iff {c : Char} {n : Nat} :
    digitValue c = some n ↔ n < 16 ∧ c.toLower = digit n := by
  have hascii : ∀ k < 128, (∀ n ∈ digitValue (Char.ofNat k), n < 16) ∧ ∀ n < 16,
      digitValue (Char.ofNat k) = some n ↔ (Char.ofNat k).toLower = digit n := by decide +kernel
  have hdigit : ∀ n < 16, (digit n).toNat < 128 := by decide
  by_cases hc : c.toNat < 128
  · obtain ⟨hlt, hiff⟩ := hascii c.toNat hc
    rw [Char.ofNat_toNat] at hlt hiff
    exact ⟨fun h => ⟨hlt n h, (hiff n (hlt n h)).mp h⟩, fun h => (hiff n h.1).mpr h.2⟩
  · have hsame : c.toLower = c := dif_neg fun hupper => hc (Nat.lt_of_le_of_lt hupper.2 (by decide))
    rw [digitValue_eq_none (Nat.not_lt.mp hc), hsame]
    refine iff_of_false nofun ?_
    rintro ⟨hn, rfl⟩
    exact hc (hdigit n hn)

theorem encode_cons (b : UInt8) (rest : List UInt8) :
    encode (b :: rest) = digit (b.toNat / 16) :: digit (b.toNat % 16) :: encode rest := rfl

/-- A byte is read off the front of a text. -/
theorem decode_cons_eq_some_iff {high low : Char} {rest : List Char} {b : UInt8}
    {bytes : List UInt8} : decode (high :: low :: rest) = some (b :: bytes) ↔
      high.toLower = digit (b.toNat / 16) ∧ low.toLower = digit (b.toNat % 16) ∧
        decode rest = some bytes := by
  have hb : b.toNat < 256 := b.toNat_lt
  rw [decode]
  constructor
  · intro h
    split at h
    next m n hm hn =>
      obtain ⟨bytes', hrest, hbytes⟩ := Option.map_eq_some_iff.mp h
      obtain ⟨hmlt, hm⟩ := digitValue_eq_some_iff.mp hm
      obtain ⟨hnlt, hn⟩ := digitValue_eq_some_iff.mp hn
      obtain ⟨hval, rfl⟩ := List.cons.inj hbytes
      have hnat : b.toNat = m * 16 + n := by
        rw [← hval, UInt8.toNat_ofNat']
        omega
      rw [hm, hn, hnat]
      refine ⟨congrArg digit ?_, congrArg digit ?_, hrest⟩ <;> omega
    next => cases h
  · rintro ⟨hm, hn, hrest⟩
    have hval : UInt8.ofNat (b.toNat / 16 * 16 + b.toNat % 16) = b := by
      rw [Nat.div_add_mod', UInt8.ofNat_toNat]
    rw [digitValue_eq_some_iff.mpr ⟨by omega, hm⟩, digitValue_eq_some_iff.mpr ⟨by omega, hn⟩,
      hrest]
    exact congrArg (fun b => some (b :: bytes)) hval

/-- Just what is written is read, in either case. -/
theorem decode_eq_some_iff {cs : List Char} {bytes : List UInt8} :
    decode cs = some bytes ↔ cs.map Char.toLower = encode bytes := by
  induction bytes generalizing cs with
  | nil =>
    rcases cs with _ | ⟨high, _ | ⟨low, rest⟩⟩
    · exact iff_of_true rfl rfl
    · exact iff_of_false (by simp [decode]) (by simp [encode])
    · refine iff_of_false (fun h => ?_) (by simp [encode])
      rw [decode] at h
      split at h
      next =>
        obtain ⟨_, _, h⟩ := Option.map_eq_some_iff.mp h
        cases h
      next => cases h
  | cons b bytes ih =>
    rcases cs with _ | ⟨high, _ | ⟨low, rest⟩⟩
    · exact iff_of_false (by simp [decode]) (by simp [encode_cons])
    · exact iff_of_false (by simp [decode]) (by simp [encode_cons])
    · rw [decode_cons_eq_some_iff, ih, encode_cons, List.map_cons, List.map_cons, List.cons.injEq,
        List.cons.injEq]

theorem take_encode (k : Nat) (bytes : List UInt8) :
    (encode bytes).take (2 * k) = encode (bytes.take k) := by
  induction bytes generalizing k with
  | nil => simp [encode]
  | cons b rest ih =>
    cases k with
    | zero => rfl
    | succ k =>
      rw [encode_cons, Nat.mul_succ, List.take_succ_cons, List.take_succ_cons, ih,
        List.take_succ_cons, encode_cons]

theorem drop_encode (k : Nat) (bytes : List UInt8) :
    (encode bytes).drop (2 * k) = encode (bytes.drop k) := by
  induction bytes generalizing k with
  | nil => simp [encode]
  | cons b rest ih =>
    cases k with
    | zero => rfl
    | succ k =>
      rw [encode_cons, Nat.mul_succ, List.drop_succ_cons, List.drop_succ_cons, ih,
        List.drop_succ_cons]

theorem length_encode (bytes : List UInt8) : (encode bytes).length = 2 * bytes.length := by
  induction bytes with
  | nil => rfl
  | cons b rest ih =>
    rw [encode_cons, List.length_cons, List.length_cons, List.length_cons, ih, Nat.mul_succ]

theorem hyphen_notMem_encode (bytes : List UInt8) : '-' ∉ encode bytes := by
  have hdigit : ∀ n < 16, '-' ≠ digit n := by decide
  induction bytes with
  | nil => exact List.not_mem_nil
  | cons b rest ih =>
    have hb : b.toNat < 256 := b.toNat_lt
    rw [encode_cons, List.mem_cons, List.mem_cons]
    rintro (h | h | h)
    · exact hdigit _ (by omega) h
    · exact hdigit _ (by omega) h
    · exact ih h

end LiveQuery.Hex
