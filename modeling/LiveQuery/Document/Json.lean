import LiveQuery.Binary64.Decimal
import LiveQuery.Document.Basic
import LiveQuery.Sorted.Map
import LiveQuery.Text.Hex

/-!
# JSON text of documents

Reading and writing documents as JSON.  A number without point and exponent that fits in 64 bits
is an integer; every other number is the nearest real, and one too great for a real is refused, as
is an escape of half a surrogate pair.  Reals are written with the fewest digits that read back
and always with a point or exponent, so that they read back as reals.

## Main definitions

* `Json.parse?`: the document of a text.
* `Json.render`: the text of a document.
-/

namespace LiveQuery.Json

/-! ### Reading numbers -/

/-- Digits off the front of a text: their value, their number, and the rest. -/
def takeDigits (cs : List Char) : Nat × Nat × List Char :=
  let digits := cs.takeWhile Char.isDigit
  (digits.foldl (fun n c => 10 * n + (c.toNat - '0'.toNat)) 0, digits.length,
    cs.dropWhile Char.isDigit)

/-- The real `digits * 10 ^ exponent`.  Exponents far outside the range of reals are decided
without computing the power. -/
def realOf? (negative : Bool) (digits : Nat) (exponent : Int) : Option Binary64 :=
  let lead := Binary64.digitCount digits + exponent
  if digits = 0 ∨ lead < -400 then some (.ofMagnitude negative 0)
  else if 400 < lead then none
  else
    let x := Binary64.ofDecimal negative digits exponent
    if x.isFinite then some x else none

/-- An exponent off the front of a text: a letter `e`, a sign, and digits. -/
def takeExponent? : List Char → Option (Int × List Char)
  | c :: rest =>
    if c = 'e' ∨ c = 'E' then
      let (negative, rest) := match rest with
        | '-' :: r => (true, r)
        | '+' :: r => (false, r)
        | r => (false, r)
      let (value, count, rest) := takeDigits rest
      if count = 0 then none
      else some (if negative then -(value : Int) else value, rest)
    else some (0, c :: rest)
  | [] => some (0, [])

/-- The integer with given sign and digits, or the real if there is no such integer of 64
bits. -/
def wholeNumber? (negative : Bool) (value : Nat) : Option Document :=
  if negative then
    if value = 0 ∨ 0x8000000000000000 < value then (realOf? true value 0).map .real
    else some (.integer (-(value : Int)))
  else if value < 0x10000000000000000 then some (.integer value)
  else (realOf? false value 0).map .real

/-- A number off the front of a text. -/
def takeNumber? (cs : List Char) : Option (Document × List Char) :=
  let (negative, cs) := match cs with
    | '-' :: r => (true, r)
    | r => (false, r)
  let leadingZero := cs.head? = some '0'
  let (whole, count, rest) := takeDigits cs
  if count = 0 ∨ (leadingZero ∧ 1 < count) then none
  else
    let (fraction, places, afterFraction, valid) := match rest with
      | '.' :: r =>
        let (f, n, r) := takeDigits r
        (f, n, r, decide (0 < n))
      | r => (0, 0, r, true)
    if !valid then none
    else
      match takeExponent? afterFraction with
      | none => none
      | some (exponent, r) =>
        if r.length = rest.length then (wholeNumber? negative whole).map (·, r)
        else
          (realOf? negative (whole * Nat.pow 10 places + fraction) (exponent - places)).map
            fun x => (.real x, r)

/-! ### Reading texts -/

/-- The number of four hexadecimal digits off the front of a text. -/
def takeUnit? : List Char → Option (Nat × List Char)
  | a :: b :: c :: d :: rest =>
    match Hex.digitValue a, Hex.digitValue b, Hex.digitValue c, Hex.digitValue d with
    | some a, some b, some c, some d => some (((a * 16 + b) * 16 + c) * 16 + d, rest)
    | _, _, _, _ => none
  | _ => none

/-- The character of an escape `\u`, whose letters are read already.  Two escapes form one
character when they are the halves of a surrogate pair. -/
def takeEscaped? (cs : List Char) : Option (Char × List Char) :=
  match takeUnit? cs with
  | none => none
  | some (high, rest) =>
    if 0xD800 ≤ high ∧ high < 0xDC00 then
      match rest with
      | '\\' :: 'u' :: rest =>
        match takeUnit? rest with
        | some (low, rest) =>
          if 0xDC00 ≤ low ∧ low < 0xE000 then
            some (.ofNat (0x10000 + (high - 0xD800) * 0x400 + (low - 0xDC00)), rest)
          else none
        | none => none
      | _ => none
    else if 0xDC00 ≤ high ∧ high < 0xE000 then none
    else some (.ofNat high, rest)

/-- The characters of a text up to its closing quote.  The fuel bounds the number of characters
read. -/
def takeText? : Nat → List Char → List Char → Option (String × List Char)
  | 0, _, _ => none
  | fuel + 1, done, cs =>
    match cs with
    | '"' :: rest => some (String.ofList done.reverse, rest)
    | '\\' :: 'u' :: rest =>
      match takeEscaped? rest with
      | some (c, rest) => takeText? fuel (c :: done) rest
      | none => none
    | '\\' :: c :: rest =>
      match "\"\\/bfnrt".toList.zip ['"', '\\', '/', '\x08', '\x0c', '\n', '\r', '\t']
          |>.lookup c with
      | some c => takeText? fuel (c :: done) rest
      | none => none
    | c :: rest => if c.toNat < 0x20 then none else takeText? fuel (c :: done) rest
    | [] => none

/-! ### Reading documents -/

/-- Skips blanks. -/
def skip (cs : List Char) : List Char :=
  cs.dropWhile fun c => c = ' ' || c = '\n' || c = '\r' || c = '\t'

/-- Reads a fixed word. -/
def takeWord? (word : String) (d : Document) (cs : List Char) : Option (Document × List Char) :=
  if word.toList.isPrefixOf cs then some (d, cs.drop word.length) else none

mutual

/-- A document off the front of a text that does not start with a blank.  The fuel bounds the
number of characters read. -/
def takeDocument? : Nat → List Char → Option (Document × List Char)
  | 0, _ => none
  | fuel + 1, cs =>
    match cs with
    | '"' :: rest => (takeText? fuel [] rest).map fun r => (.text r.1, r.2)
    | '[' :: rest =>
      match skip rest with
      | ']' :: rest => some (.list [], rest)
      | rest => takeItems? fuel [] rest
    | '\x7b' :: rest =>
      match skip rest with
      | '\x7d' :: rest => some (.object [], rest)
      | rest => takeFields? fuel ∅ rest
    | 'n' :: _ => takeWord? "null" .null cs
    | 't' :: _ => takeWord? "true" (.boolean true) cs
    | 'f' :: _ => takeWord? "false" (.boolean false) cs
    | cs => takeNumber? cs

/-- The items of a list up to its closing bracket. -/
def takeItems? : Nat → List Document → List Char → Option (Document × List Char)
  | 0, _, _ => none
  | fuel + 1, done, cs =>
    match takeDocument? fuel cs with
    | none => none
    | some (item, rest) =>
      match skip rest with
      | ',' :: rest => takeItems? fuel (item :: done) (skip rest)
      | ']' :: rest => some (.list (item :: done).reverse, rest)
      | _ => none

/-- The fields of an object up to its closing brace.  A later field of the same name wins. -/
def takeFields? : Nat → SortedMap String Document → List Char → Option (Document × List Char)
  | 0, _, _ => none
  | fuel + 1, done, cs =>
    match cs with
    | '"' :: rest =>
      match takeText? fuel [] rest with
      | none => none
      | some (name, rest) =>
        match skip rest with
        | ':' :: rest =>
          match takeDocument? fuel (skip rest) with
          | none => none
          | some (item, rest) =>
            let done := done.insert name item
            match skip rest with
            | ',' :: rest => takeFields? fuel done (skip rest)
            | '\x7d' :: rest => some (.object done.toList, rest)
            | _ => none
        | _ => none
    | _ => none

end

/-- The document of a text, if the text is JSON. -/
def parse? (text : String) : Option Document :=
  let cs := text.toList
  match takeDocument? (cs.length + 1) (skip cs) with
  | some (d, rest) => if (skip rest).isEmpty then some d else none
  | none => none

/-! ### Writing -/

/-- A character inside quotes. -/
def escape (c : Char) : List Char :=
  if c = '"' then ['\\', '"']
  else if c = '\\' then ['\\', '\\']
  else if c.toNat < 0x20 then
    '\\' :: 'u' :: '0' :: '0' :: [Hex.digit (c.toNat / 16), Hex.digit (c.toNat % 16)]
  else [c]

/-- A text in quotes. -/
def renderText (s : String) : String := String.ofList ('"' :: (s.toList.flatMap escape ++ ['"']))

/-- A real; what is not finite is written as null. -/
def renderReal (x : Binary64) : String := if x.isFinite then x.text .exact else "null"

mutual

/-- The text of a document. -/
def render : Document → String
  | .null => "null"
  | .boolean b => if b then "true" else "false"
  | .integer i => toString i
  | .real x => renderReal x
  | .text s => renderText s
  | .list items => "[" ++ renderItems items ++ "]"
  | .object fields => "\x7b" ++ renderFields fields ++ "\x7d"

/-- The texts of some documents with commas between them. -/
def renderItems : List Document → String
  | [] => ""
  | [d] => render d
  | d :: rest => render d ++ "," ++ renderItems rest

/-- The texts of some fields with commas between them. -/
def renderFields : List (String × Document) → String
  | [] => ""
  | [(name, d)] => renderText name ++ ":" ++ render d
  | (name, d) :: rest => renderText name ++ ":" ++ render d ++ "," ++ renderFields rest

end

end LiveQuery.Json
