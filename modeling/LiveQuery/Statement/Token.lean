import LiveQuery.Expr.Basic
import LiveQuery.Statement.Query
import LiveQuery.Text.Quoted
import LiveQuery.Value.Literal

/-!
# Tokens of statements

A statement is a list of tokens: fixed words, quoted names, qualified columns, and values.  It has
two texts.  In the prepared text every value is a placeholder and the values are listed beside it;
in the canonical text every value stands as a literal.

## Main definitions

* `Keyword`: the fixed words, with the blanks that go with them.
* `Token`: the tokens.
* `Prepared`, `Token.prepare`: the prepared text and its parameters.
* `Token.canonical`: the canonical text.
* `TextPlace`, `Token.place`: where a token stands in the prepared text.
-/

namespace LiveQuery

/-! ### Keywords -/

/-- A fixed piece of a statement. -/
inductive Keyword where
  | openParen
  | closeParen
  | comma
  | null
  | not
  | negate
  | isNull
  | isNotNull
  | operator (op : BinaryOp)
  | call (f : Builtin)
  | now
  | select
  | star
  | as
  | from
  | where
  | and
  | orderBy
  | direction (d : Direction)
  | insertInto
  | defaultValues
  | columns
  | values
  | update
  | set
  | deleteFrom
deriving DecidableEq, Repr

namespace Keyword

/-- The text of a keyword. -/
def text : Keyword → String
  | openParen => "("
  | closeParen => ")"
  | comma => ", "
  | null => "NULL"
  | not => "NOT "
  | negate => "-"
  | isNull => " IS NULL"
  | isNotNull => " IS NOT NULL"
  | operator op => " " ++ op.symbol ++ " "
  | call f => f.name ++ "("
  | now => "((julianday('now') - 2440587.5) * 86400.0)"
  | select => "SELECT "
  | star => "*"
  | as => " AS "
  | «from» => " FROM "
  | «where» => " WHERE "
  | and => " AND "
  | orderBy => " ORDER BY "
  | direction .ascending => " ASC"
  | direction .descending => " DESC"
  | insertInto => "INSERT INTO "
  | defaultValues => " DEFAULT VALUES"
  | columns => " ("
  | values => ") VALUES ("
  | update => "UPDATE "
  | set => " SET "
  | deleteFrom => "DELETE FROM "

end Keyword

/-! ### Tokens -/

/-- A piece of a statement. -/
inductive Token where
  /-- A fixed word. -/
  | keyword (k : Keyword)
  /-- A name of a table, column, alias or result. -/
  | name (identifier : String)
  /-- A column behind the name that qualifies it. -/
  | column (qualifier identifier : String)
  /-- A value other than null. -/
  | literal (v : Value)
deriving DecidableEq, Repr

/-- The text of a statement with placeholders, and the values they stand for. -/
structure Prepared where
  /-- The text, with a placeholder for every value. -/
  text : String
  /-- The values, in the order of their placeholders. -/
  parameters : List Value
deriving DecidableEq, Repr

/-- A name between double quotes, with the double quotes inside it doubled. -/
def quoteName (name : String) : List Char := Quoted.quote '"' name.toList

namespace Token

/-- The characters of a token in prepared text. -/
def preparedChars : Token → List Char
  | keyword k => k.text.toList
  | name n => quoteName n
  | column q n => quoteName q ++ '.' :: quoteName n
  | literal _ => ['?']

/-- The characters of a token in canonical text. -/
def canonicalChars : Token → List Char
  | keyword k => k.text.toList
  | name n => quoteName n
  | column q n => quoteName q ++ '.' :: quoteName n
  | literal v => v.literalChars

/-- The value that a token stands for. -/
def parameter? : Token → Option Value
  | literal v => some v
  | _ => none

/-- The text with placeholders, and the values they stand for. -/
def prepare (tokens : List Token) : Prepared where
  text := String.ofList (tokens.flatMap preparedChars)
  parameters := tokens.filterMap parameter?

/-- The text with all values as literals. -/
def canonical (tokens : List Token) : String := String.ofList (tokens.flatMap canonicalChars)

/-- Puts commas between some pieces of a statement. -/
def separated : List (List Token) → List Token
  | [] => []
  | [piece] => piece
  | piece :: rest => piece ++ keyword .comma :: separated rest

end Token

/-! ### Places -/

/-- A place in a text, by the number of bytes before it. -/
structure TextPlace where
  /-- The text. -/
  text : String
  /-- How many bytes stand before the place. -/
  offset : Nat
deriving DecidableEq, Repr

namespace Token

/-- Where the token stands in the prepared text that has `index` tokens before it. -/
def place (tokens : List Token) (index : Nat) : TextPlace :=
  ⟨(prepare tokens).text, (prepare (tokens.take index)).text.utf8ByteSize⟩

/-- The index of the token that stands for the value after `n` others. -/
def indexOfValue? : Nat → List Token → Option Nat
  | _, [] => none
  | n, t :: rest =>
    match (parameter? t).isSome, n with
    | true, 0 => some 0
    | true, n + 1 => (indexOfValue? n rest).map (· + 1)
    | false, n => (indexOfValue? n rest).map (· + 1)

end Token

end LiveQuery
