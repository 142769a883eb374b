import LiveQuery.Engine.Error
import LiveQuery.Statement.Render

/-!
# Reading statements

The engine reads a statement word by word and puts its expressions together from the inside.  It
stops at the first word at which something is wrong: a name that is cut off, a parameter too many,
a call with too many arguments, or an expression with too many parts within each other.

A part is put together when the word behind it is read.  Of several things wrong at the same word,
the last one is reported.

## Main definitions

* `Expr.height`: how many parts stand within each other in an expression.
* `Expr.refusals`: what is wrong with an expression.
* `Reading.fault?`: what is wrong with a statement.
-/

namespace LiveQuery

namespace Expr

mutual

/-- How many parts stand within each other in an expression: a column has its qualifier inside, and
the current moment is a product of a difference with a function of a constant. -/
def height : Expr → Nat
  | value _ => 1
  | column _ => 2
  | unary _ e => height e + 1
  | binary op l r =>
    match nullTest? op l r with
    | some (_, true) => height l + 1
    | some (_, false) => height r + 1
    | none => max (height l) (height r) + 1
  | call .now _ => 4
  | call _ args => heightAll args + 1
  | join _ _ inner => max (height inner) 3 + 1

/-- The greatest height of some expressions. -/
def heightAll : List Expr → Nat
  | [] => 0
  | e :: es => max (height e) (heightAll es)

end

end Expr

/-- Something wrong with a statement. -/
structure Refusal where
  /-- The index of the token at which it is noticed. -/
  noticed : Nat
  /-- What is wrong. -/
  error : EngineError
deriving DecidableEq, Repr

/-- An expression that has been read. -/
structure Reading where
  /-- How many parts stand within each other. -/
  height : Nat
  /-- How many tokens stand before what follows the expression. -/
  finish : Nat
  /-- What is wrong with it, in the order in which it is noticed. -/
  refusals : List Refusal

namespace Reading

/-- An expression that consists of a single token before which `index` others stand. -/
def token (index height : Nat) : Reading := ⟨height, index + 1, []⟩

/-- What is wrong with a height, as noticed at some token. -/
def tooHigh (noticed height : Nat) : List Refusal :=
  if Limit.depth < height then [⟨noticed, .tooDeep⟩] else []

/-- An expression in parentheses made of one or two parts, when `between` tokens stand between the
last part and the closing parenthesis. -/
def enclosed (parts : Reading) (between : Nat) : Reading :=
  let closing := parts.finish + between
  let height := parts.height + 1
  ⟨height, closing + 1, parts.refusals ++ tooHigh closing height⟩

/-- Two parts, the second of which stands behind the first one. -/
def both (a b : Reading) : Reading := ⟨max a.height b.height, b.finish, a.refusals ++ b.refusals⟩

end Reading

namespace Expr

mutual

/-- Reads an expression before which `index` tokens stand.  `place` tells where tokens stand. -/
def read (place : Nat → TextPlace) (index : Nat) : Expr → Reading
  | value _ => .token index 1
  | column _ => .token index 2
  | unary op e =>
    if op = .isNull ∨ op = .isNotNull then (read place (index + 1) e).enclosed 1
    else (read place (index + 2) e).enclosed 0
  | binary op l r =>
    let left := read place (index + 1) l
    match nullTest? op l r with
    | some (_, true) => left.enclosed 1
    | some (_, false) => (read place (index + 1) r).enclosed 1
    | none => (left.both (read place (left.finish + 1) r)).enclosed 0
  | call .now _ => .token index 4
  | call f args =>
    let parts := readAll place (index + 1) args
    let finish := if args.isEmpty then index + 2 else parts.finish
    if Limit.arguments < args.length then
      ⟨0, finish, parts.refusals ++ [⟨finish, .faulty (.tooManyArguments f) (place index)⟩]⟩
    else
      let height := parts.height + 1
      ⟨height, finish, parts.refusals ++ Reading.tooHigh finish height⟩
  | join _ _ inner =>
    let parts := read place (index + 2) inner
    let finish := parts.finish + 9
    let height := max parts.height 3 + 1
    ⟨height, finish, parts.refusals ++ Reading.tooHigh finish height⟩

/-- Reads some expressions with a token behind each. -/
def readAll (place : Nat → TextPlace) (index : Nat) : List Expr → Reading
  | [] => ⟨0, index, []⟩
  | e :: es =>
    let first := read place index e
    first.both (readAll place (first.finish + 1) es)

end

end Expr

namespace Reading

/-- What is wrong with some expressions in a statement. -/
def siteRefusals (place : Nat → TextPlace) (sites : List Site) : List Refusal :=
  sites.flatMap fun s => (s.expr.read place s.index).refusals

/-- Reads the conjunction of what was read before and some conditions. -/
def conjunction (place : Nat → TextPlace) (before : Reading) : List Site → Reading
  | [] => before
  | s :: rest =>
    let parts := before.both (s.expr.read place s.index)
    let height := parts.height + 1
    conjunction place
      ⟨height, parts.finish, parts.refusals ++ tooHigh parts.finish height⟩ rest

/-- Reads some conditions that all have to hold. -/
def conditions (place : Nat → TextPlace) : List Site → Reading
  | [] => ⟨0, 0, []⟩
  | s :: rest => conjunction place (s.expr.read place s.index) rest

/-- What is noticed at the token at which something is noticed first. -/
def first? (refusals : List Refusal) : Option Refusal :=
  (refusals.map Refusal.noticed).min?.bind fun noticed =>
    (refusals.filter fun r => r.noticed == noticed).getLast?

/-- The parameter too many in a statement. -/
def parameterRefusals (tokens : List Token) : List Refusal :=
  (Token.indexOfValue? Limit.parameters tokens).toList.map fun index =>
    ⟨index + 1, .faulty .tooManyParameters (Token.place tokens index)⟩

/-- Whether a token has a character of code zero, at which reading ends. -/
def isCutOff (t : Token) : Bool := t.preparedChars.any (· == '\x00')

/-- What is wrong with the words of a statement, when something is wrong with its expressions. -/
def fault? (tokens : List Token) (refusals : List Refusal) : Option EngineError :=
  match first? (parameterRefusals tokens ++ refusals) with
  | some r =>
    if (tokens.take (r.noticed + 1)).any isCutOff then
      EngineError.ofText? (Token.prepare tokens).text
    else some r.error
  | none => EngineError.ofText? (Token.prepare tokens).text

end Reading

end LiveQuery
