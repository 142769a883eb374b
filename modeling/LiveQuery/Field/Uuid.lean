import LiveQuery.Text.Hex

/-!
# Universally unique identifiers

An identifier is sixteen bytes.  It is written as lower-case hexadecimal digits in groups of 8,
4, 4, 4 and 12 with hyphens between them.  Read are also the 32 digits alone, the hyphenated form
in braces, and the hyphenated form behind `urn:uuid:`.  Letters are read in either case.

## Main definitions

* `Uuid`: the type, with its length as a proof field.
* `Uuid.toString`, `Uuid.parse?`: the hyphenated text and the reader of all forms.
* `Uuid.random`: a version 4 identifier with given random bits.
-/

namespace LiveQuery

/-- A universally unique identifier. -/
structure Uuid where
  /-- The bytes, first to last. -/
  bytes : List UInt8
  /-- There are sixteen of them. -/
  length_bytes : bytes.length = 16
deriving DecidableEq

namespace Uuid

/-- The identifier with given bytes, if there are sixteen. -/
def ofBytes? (bytes : List UInt8) : Option Uuid :=
  if h : bytes.length = 16 then some ⟨bytes, h⟩ else none

/-! ### Text -/

/-- Puts hyphens after 8, 12, 16 and 20 digits. -/
def hyphenate (digits : List Char) : List Char :=
  digits.take 8 ++ '-' :: ((digits.drop 8).take 4 ++ '-' :: ((digits.drop 12).take 4 ++
    '-' :: ((digits.drop 16).take 4 ++ '-' :: digits.drop 20)))

/-- The hyphenated text. -/
def toString (u : Uuid) : String := String.ofList (hyphenate (Hex.encode u.bytes))

/-- The identifier with given digits. -/
def ofDigits? (digits : List Char) : Option Uuid := (Hex.decode digits).bind ofBytes?

/-- Reads the hyphenated form. -/
def ofHyphenated? (text : List Char) : Option Uuid :=
  let digits := text.filter (· != '-')
  if text = hyphenate digits then ofDigits? digits else none

/-- Reads an identifier in any of its forms. -/
def parse? (text : String) : Option Uuid :=
  let chars := text.toList
  match chars.length with
  | 32 => ofDigits? chars
  | 36 => ofHyphenated? chars
  | 38 =>
    if chars.head? = some '\x7b' ∧ chars.getLast? = some '\x7d' then
      ofHyphenated? (chars.drop 1).dropLast
    else none
  | 45 =>
    if (chars.take 9).map Char.toLower = "urn:uuid:".toList then ofHyphenated? (chars.drop 9)
    else none
  | _ => none

/-! ### Fresh identifiers -/

/-- The last sixteen bytes of a number, most significant first. -/
def bytesOf (n : Nat) : List UInt8 :=
  (List.range 16).map fun i => UInt8.ofNat (n >>> (8 * (15 - i)))

/-- The version 4 identifier with given random bits: the digits for version and variant are
fixed, all others come from the number. -/
def random (bits : Nat) : Uuid where
  bytes := ((bytesOf bits).modify 6 fun b => b % 16 + 64).modify 8 fun b => b % 64 + 128
  length_bytes := by simp [bytesOf]

end Uuid

end LiveQuery
