/-!
# Text as bytes

Text is encoded in UTF-8.  Any bytes can be read as text: what is no character becomes U+FFFD, once
for each longest run of bytes that could have begun a character.

## Main definitions

* `Utf8.encode`: the bytes of a text.
* `Utf8.Lead`: what the first byte of a character says about the others.
* `Utf8.decode`: the text that some bytes stand for.
-/

namespace LiveQuery.Utf8

/-- The bytes of a text. -/
def encode (s : String) : List UInt8 := s.toList.flatMap String.utf8EncodeChar

/-- What the first byte of a character says. -/
structure Lead where
  /-- How many bytes follow it. -/
  more : Nat
  /-- The least value of the byte after it. -/
  low : Nat
  /-- The greatest value of the byte after it. -/
  high : Nat
  /-- Its share of the code point. -/
  share : Nat

/-- What a byte says about the character that it begins, if it begins one.  The bounds on the
second byte rule out long forms, surrogates and code points that are too great. -/
def lead? (byte : Nat) : Option Lead :=
  if byte < 0x80 then some ⟨0, 0x80, 0xBF, byte⟩
  else if byte < 0xC2 then none
  else if byte < 0xE0 then some ⟨1, 0x80, 0xBF, byte - 0xC0⟩
  else if byte < 0xF0 then
    some ⟨2, if byte = 0xE0 then 0xA0 else 0x80, if byte = 0xED then 0x9F else 0xBF, byte - 0xE0⟩
  else if byte < 0xF5 then
    some ⟨3, if byte = 0xF0 then 0x90 else 0x80, if byte = 0xF4 then 0x8F else 0xBF, byte - 0xF0⟩
  else none

/-- Reads a number of further bytes of a character whose first bytes gave a part of the code point:
the code point, if all of them are there, and what follows those that are. -/
def readMore : Nat → Nat → Nat → Nat → List UInt8 → Option Nat × List UInt8
  | 0, _, _, code, rest => (some code, rest)
  | _ + 1, _, _, _, [] => (none, [])
  | more + 1, low, high, code, b :: rest =>
    if low ≤ b.toNat ∧ b.toNat ≤ high then
      readMore more 0x80 0xBF (code * 64 + (b.toNat - 0x80)) rest
    else (none, b :: rest)

theorem length_readMore_le (more low high code : Nat) (bytes : List UInt8) :
    (readMore more low high code bytes).2.length ≤ bytes.length := by
  fun_induction readMore more low high code bytes with
  | case1 => simp
  | case2 => simp
  | case3 _ _ _ _ _ _ _ ih => exact Nat.le_trans ih (Nat.le_succ _)
  | case4 => simp

/-- The character that stands for bytes that are none. -/
def replacement : Char := '\ufffd'

/-- Reads the character that begins with a byte, and what follows it. -/
def readChar (first : UInt8) (rest : List UInt8) : Char × List UInt8 :=
  match lead? first.toNat with
  | none => (replacement, rest)
  | some lead =>
    match readMore lead.more lead.low lead.high lead.share rest with
    | (some code, rest) => (Char.ofNat code, rest)
    | (none, rest) => (replacement, rest)

theorem length_readChar_le (first : UInt8) (rest : List UInt8) :
    (readChar first rest).2.length ≤ rest.length := by
  unfold readChar
  split
  · exact Nat.le_refl _
  · next lead _ =>
    have h := length_readMore_le lead.more lead.low lead.high lead.share rest
    split <;> simp_all

/-- The characters that some bytes stand for. -/
def decodeChars : List UInt8 → List Char
  | [] => []
  | first :: rest =>
    let read := readChar first rest
    read.1 :: decodeChars read.2
termination_by bytes => bytes.length
decreasing_by exact Nat.lt_succ_of_le (length_readChar_le first rest)

/-- The text that some bytes stand for. -/
def decode (bytes : List UInt8) : String := String.ofList (decodeChars bytes)

end LiveQuery.Utf8
