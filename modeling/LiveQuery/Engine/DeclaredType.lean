import LiveQuery.Text.Caseless

/-!
# Declared types as written

The type of a column is declared by some words, with blanks and comments around and between them.
The engine keeps what stands from the first word to the last.  A type in quotes is kept without
them, and a standard type in capital letters.

## Main definitions

* `DeclaredType.core`: a text without the blanks and comments around it.
* `DeclaredType.unquoted`: a text without the quotes at its beginning.
* `DeclaredType.registered`: a declared type as the engine keeps it.
-/

namespace LiveQuery.DeclaredType

/-- The types that the engine knows by name. -/
def standard : List String := ["ANY", "BLOB", "INT", "INTEGER", "REAL", "TEXT"]

/-- Whether a character is a blank between words. -/
def isBlank (c : Char) : Bool := c == ' ' || c == '\t' || c == '\n' || c == '\x0c' || c == '\r'

/-! ### Quotes -/

/-- The quote that ends what a quote begins. -/
def closing? (c : Char) : Option Char :=
  if c == '"' || c == '\'' || c == '`' then some c else if c == '[' then some ']' else none

/-- What stands before the quote that ends a quoted text; a quote written twice stands for one. -/
def inside (quote : Char) : List Char → List Char
  | [] => []
  | c :: rest =>
    if c = quote then
      match rest with
      | d :: rest' => if d = quote then quote :: inside quote rest' else []
      | [] => []
    else c :: inside quote rest

/-- A text that begins with a quote without it and what follows the quote that ends it. -/
def unquoted : List Char → List Char
  | [] => []
  | c :: rest =>
    match closing? c with
    | some quote => inside quote rest
    | none => c :: rest

/-- A text without the quotes around it, if there are no others in it. -/
def bare (text : List Char) : List Char :=
  match text with
  | [] => []
  | c :: rest =>
    if (closing? c).isSome && !rest.dropLast.any fun d => (closing? d).isSome then rest.dropLast
    else text

/-! ### Words -/

/-- What a character belongs to. -/
inductive Part where
  /-- Words and the blanks between them. -/
  | words
  /-- A quoted word, up to a quote. -/
  | quoted (quote : Char)
  /-- A comment up to the end of the line. -/
  | line
  /-- A comment between signs of its own. -/
  | block

/-- What stands from the first word to the last.  `pending` are the blanks and comments since the
last word and `kept` what was read up to it, both backwards. -/
def scan : Part → List Char → List Char → List Char → List Char
  | _, _, kept, [] => kept.reverse
  | .words, pending, kept, '-' :: '-' :: rest => scan .line ('-' :: '-' :: pending) kept rest
  | .words, pending, kept, '/' :: '*' :: rest => scan .block ('*' :: '/' :: pending) kept rest
  | .block, pending, kept, '*' :: '/' :: rest => scan .words ('/' :: '*' :: pending) kept rest
  | .words, pending, kept, c :: rest =>
    if isBlank c then scan .words (c :: pending) kept rest
    else
      let kept := if kept.isEmpty then [c] else c :: (pending ++ kept)
      match closing? c with
      | some quote => scan (.quoted quote) [] kept rest
      | none => scan .words [] kept rest
  | .quoted quote, pending, kept, c :: rest =>
    scan (if c = quote then .words else .quoted quote) pending (c :: kept) rest
  | .line, pending, kept, c :: rest =>
    scan (if c = '\n' then .words else .line) (c :: pending) kept rest
  | .block, pending, kept, c :: rest => scan .block (c :: pending) kept rest

/-- A text without the blanks and comments around it. -/
def core (text : List Char) : List Char := scan .words [] [] text

/-! ### Types -/

/-- A declared type as the engine keeps it. -/
def registered (declared : String) : String :=
  let text := core declared.toList
  let word := if 3 ≤ text.length then bare text else text
  (standard.find? (Caseless.same (String.ofList word))).getD (String.ofList (unquoted word))

end LiveQuery.DeclaredType
