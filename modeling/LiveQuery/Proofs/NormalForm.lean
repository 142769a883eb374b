import LiveQuery.Proofs.Literals
import LiveQuery.Proofs.Outline

/-!
# Normal forms of expressions

What the canonical text of an expression says.  Two expressions can have one text: a comparison with
the null literal is written as a test for null, a NaN as null, the moment without its arguments, and
a column by the name that qualifies its table instead of the table.  The normal form of an
expression is the expression with just these differences taken away, in two steps.  First
comparisons with the null literal become tests.  Then leaves and joins are replaced by what is
written for them, and this does not bring the first step up again: a comparison with a NaN remains a
comparison, although both of its sides are written as a comparison with null would be.

## Main definitions

* `NormalForm`: normal forms, in which nothing is left that is not written.
* `Expr.nullTests`, `Expr.asWritten`, `Expr.normalForm`: the two steps, and both together.
* `NormalForm.chars`: the text of a normal form.

## Main results

* `Expr.text_eq_normalForm`: an expression is written as its normal form is.
-/

namespace LiveQuery

/-! ### Normal forms -/

theorem Value.written_written (v : Value) : v.written.written = v.written := by
  cases v with
  | real x =>
    rw [written]
    split_ifs with hnan
    · rfl
    · rw [written, if_neg hnan]
  | _ => rfl

/-- The literal of a value is that of what it is read as. -/
theorem Value.literalChars_written (v : Value) : v.written.literalChars = v.literalChars := by
  cases v with
  | real x =>
    rw [written]
    split_ifs with hnan
    · rw [literalChars, literalChars, realLiteral, if_pos hnan]
    · rfl
  | _ => rfl

/-- A value with a literal of its own: one that is not a NaN. -/
structure Literal where
  /-- The value. -/
  value : Value
  /-- It is what its literal is read as. -/
  written : value.written = value

/-- The literal that a value is written as. -/
def Literal.of (v : Value) : Literal := ⟨v.written, v.written_written⟩

theorem Literal.eq_of_value {a b : Literal} (h : a.value = b.value) : a = b := by
  cases a
  cases b
  simpa using h

/-- An expression as it is written: names are those of the text, and the moment has no arguments. -/
inductive NormalForm where
  /-- A constant. -/
  | value (v : Literal)
  /-- A column behind the name that qualifies it. -/
  | column (qualifier name : String)
  /-- An operation on one operand. -/
  | unary (op : UnaryOp) (operand : NormalForm)
  /-- An operation on two operands. -/
  | binary (op : BinaryOp) (left right : NormalForm)
  /-- The current moment. -/
  | now
  /-- A call of any other function. -/
  | call (f : Builtin) (hf : f ≠ .now) (args : List NormalForm)
  /-- A subquery on a table that goes by the name `row`: the inner expression on the row whose
  column `target` equals a column around it. -/
  | join (table row target sourceQualifier sourceName : String) (inner : NormalForm)

namespace Expr

mutual

/-- The expression with comparisons with the null literal as tests for null. -/
def nullTests : Expr → Expr
  | value v => value v
  | column c => column c
  | unary op e => unary op (nullTests e)
  | binary op l r =>
    match nullTest? op l r with
    | some (test, true) => unary test (nullTests l)
    | some (test, false) => unary test (nullTests r)
    | none => binary op (nullTests l) (nullTests r)
  | call f args => call f (nullTestsAll args)
  | join source target inner => join source target (nullTests inner)

/-- Some expressions with comparisons with the null literal as tests for null. -/
def nullTestsAll : List Expr → List Expr
  | [] => []
  | e :: es => nullTests e :: nullTestsAll es

end

mutual

/-- What is written for the leaves and joins of an expression under some enclosing joins, when `n`
joins of the statement have begun before it. -/
def asWritten (scopes : Scopes) (n : Nat) : Expr → NormalForm
  | value v => .value (.of v)
  | column c => .column (scopes.qualifier c.table) c.name
  | unary op e => .unary op (asWritten scopes n e)
  | binary op l r => .binary op (asWritten scopes n l) (asWritten scopes (n + joins l) r)
  | call f args => if hf : f = .now then .now else .call f hf (asWrittenAll scopes n args)
  | join source target inner =>
    let row := joinAlias target.table (n + 1)
    .join target.table row target.name (scopes.qualifier source.table) source.name
      (asWritten ((target.table, row) :: scopes) (n + 1) inner)

/-- What is written for the leaves and joins of some expressions, one after the other. -/
def asWrittenAll (scopes : Scopes) (n : Nat) : List Expr → List NormalForm
  | [] => []
  | e :: es => asWritten scopes n e :: asWrittenAll scopes (n + joins e) es

end

/-- The normal form of an expression. -/
def normalForm (e : Expr) : NormalForm := e.nullTests.asWritten [] 0

end Expr

/-! ### Texts -/

/-- The characters in front of an operand. -/
def UnaryOp.opening : UnaryOp → List Char
  | not => ['(', 'N', 'O', 'T', ' ']
  | negate => ['(', '-']
  | isNull => ['(']
  | isNotNull => ['(']

/-- The characters behind an operand. -/
def UnaryOp.closing : UnaryOp → List Char
  | not => [')']
  | negate => [')']
  | isNull => [' ', 'I', 'S', ' ', 'N', 'U', 'L', 'L', ')']
  | isNotNull => [' ', 'I', 'S', ' ', 'N', 'O', 'T', ' ', 'N', 'U', 'L', 'L', ')']

/-- The characters of a keyword. -/
def Keyword.chars (k : Keyword) : List Char := k.text.toList

namespace NormalForm

/-- The text of a column. -/
def columnChars (qualifier name : String) : List Char :=
  quoteName qualifier ++ '.' :: quoteName name

/-- The text of a subquery behind its result. -/
def sourceChars (table row target sourceQualifier sourceName : String) : List Char :=
  Keyword.from.chars ++ (quoteName table ++ (Keyword.as.chars ++ (quoteName row ++
    (Keyword.where.chars ++ (columnChars row target ++
      (' ' :: '=' :: ' ' :: (columnChars sourceQualifier sourceName ++ [')'])))))))

mutual

/-- The text of a normal form. -/
def chars : NormalForm → List Char
  | value v => v.value.literalChars
  | column q n => columnChars q n
  | unary op e => op.opening ++ (chars e ++ op.closing)
  | binary op l r =>
    '(' :: (chars l ++ ' ' :: (op.symbol.toList ++ ' ' :: (chars r ++ [')'])))
  | now => Keyword.now.chars
  | call f _ args => f.name.toList ++ '(' :: firstChars args
  | join table row target sourceQualifier sourceName inner =>
    '(' :: (Keyword.select.chars ++
      (chars inner ++ sourceChars table row target sourceQualifier sourceName))

/-- The text of arguments with the bracket behind them. -/
def firstChars : List NormalForm → List Char
  | [] => [')']
  | a :: rest => chars a ++ laterChars rest

/-- The text of arguments that follow another one, with the bracket behind them. -/
def laterChars : List NormalForm → List Char
  | [] => [')']
  | a :: rest => ',' :: ' ' :: (chars a ++ laterChars rest)

end

end NormalForm

/-! ### An expression and its normal form -/

namespace Expr

mutual

/-- Tests for null have the joins of the comparisons that they stand for: the null literal has
none. -/
theorem joins_nullTests : (e : Expr) → e.nullTests.joins = e.joins
  | value _ => rfl
  | column _ => rfl
  | unary _ e => joins_nullTests e
  | binary op l r => by
    rw [nullTests]
    cases hnull : nullTest? op l r with
    | none => rw [joins, joins, joins_nullTests l, joins_nullTests r]
    | some found =>
      obtain ⟨_, _ | _⟩ := found
      · obtain ⟨h, -⟩ | ⟨-, rfl⟩ := nullTest?_eq_some hnull
        · cases h
        · rw [joins, joins, joins_nullTests r]
          exact (Nat.zero_add _).symm
      · obtain ⟨-, rfl⟩ | ⟨h, -⟩ := nullTest?_eq_some hnull
        · exact joins_nullTests l
        · cases h
  | call f args => by
    have hargs := joinsAll_nullTestsAll args
    cases f <;> first | rfl | exact hargs
  | join _ _ inner => congrArg (· + 1) (joins_nullTests inner)

theorem joinsAll_nullTestsAll : (es : List Expr) → joinsAll (nullTestsAll es) = joinsAll es
  | [] => rfl
  | e :: es => by
    rw [nullTestsAll, joinsAll, joinsAll, joins_nullTests e, joinsAll_nullTestsAll es]

end

/-- The characters of an operation on one operand. -/
theorem flatMap_unaryTokens (operand : List Token) (op : UnaryOp) :
    (unaryTokens operand op).flatMap Token.canonicalChars =
      op.opening ++ (operand.flatMap Token.canonicalChars ++ op.closing) := by
  cases op <;> simp [unaryTokens, Token.canonicalChars, UnaryOp.opening, UnaryOp.closing,
    Keyword.text]

theorem flatMap_valueTokens (v : Value) :
    (valueTokens v).flatMap Token.canonicalChars = v.literalChars := by
  cases v <;> simp [valueTokens, Token.canonicalChars, Keyword.text, Value.literalChars]

/-- The characters of arguments with commas between them. -/
theorem flatMap_separated (first : List Token) (rest : List (List Token)) :
    (Token.separated (first :: rest)).flatMap Token.canonicalChars =
      first.flatMap Token.canonicalChars ++
        rest.flatMap fun ts => ',' :: ' ' :: ts.flatMap Token.canonicalChars := by
  induction rest generalizing first with
  | nil => simp [Token.separated]
  | cons second rest ih =>
    rw [Token.separated, List.flatMap_append, List.flatMap_cons, ih]
    · simp [Token.canonicalChars, Keyword.text]
    · exact List.cons_ne_nil _ _

mutual

/-- **An expression is written as its normal form is.** -/
theorem flatMap_tokens (scopes : Scopes) (n : Nat) : (e : Expr) →
    (e.tokens scopes n).flatMap Token.canonicalChars = (e.nullTests.asWritten scopes n).chars
  | value v => by
    rw [tokens, nullTests, asWritten, NormalForm.chars, flatMap_valueTokens]
    exact v.literalChars_written.symm
  | column c => by
    rw [tokens, nullTests, asWritten, NormalForm.chars]
    exact List.append_nil _
  | unary op e => by
    rw [tokens, nullTests, asWritten, NormalForm.chars, flatMap_unaryTokens,
      flatMap_tokens scopes n e]
  | binary op l r => by
    have hl := flatMap_tokens scopes n l
    have hr := flatMap_tokens scopes (n + joins l) r
    rw [tokens, nullTests]
    cases hnull : nullTest? op l r with
    | none =>
      dsimp only
      rw [asWritten, NormalForm.chars, joins_nullTests, ← hl, ← hr]
      simp [Token.canonicalChars, Keyword.text]
    | some found =>
      obtain ⟨test, _ | _⟩ := found
      · obtain ⟨h, -⟩ | ⟨-, rfl⟩ := nullTest?_eq_some hnull
        · cases h
        · have hnumber : n + joins null = n := rfl
          dsimp only
          rw [flatMap_unaryTokens, hr, hnumber, asWritten, NormalForm.chars]
      · dsimp only
        rw [flatMap_unaryTokens, hl, asWritten, NormalForm.chars]
  | call f args => by
    by_cases hf : f = .now
    · subst hf
      rw [tokens, nullTests, asWritten, dif_pos rfl, NormalForm.chars]
      exact List.append_nil _
    · rw [tokens_call hf, nullTests, asWritten, dif_neg hf, NormalForm.chars,
        ← flatMap_separated_tokensAll scopes n args]
      simp [Token.canonicalChars, Keyword.text]
  | join source target inner => by
    have hinner := flatMap_tokens
      ((target.table, joinAlias target.table (n + 1)) :: scopes) (n + 1) inner
    rw [tokens, nullTests, asWritten, NormalForm.chars, ← hinner]
    simp [Token.canonicalChars, Column.token, Scopes.qualifier_cons_self, NormalForm.sourceChars,
      NormalForm.columnChars, Keyword.chars, Keyword.text, BinaryOp.symbol]

/-- Arguments are written with commas between them and a bracket behind them. -/
theorem flatMap_separated_tokensAll (scopes : Scopes) (n : Nat) : (es : List Expr) →
    (Token.separated (tokensAll scopes n es)).flatMap Token.canonicalChars ++ [')'] =
      NormalForm.firstChars (asWrittenAll scopes n (nullTestsAll es))
  | [] => rfl
  | e :: es => by
    rw [tokensAll, flatMap_separated, nullTestsAll, asWrittenAll, NormalForm.firstChars,
      List.append_assoc, flatMap_tokens scopes n e, flatMap_tokensAll scopes (n + joins e) es,
      joins_nullTests]

theorem flatMap_tokensAll (scopes : Scopes) (n : Nat) : (es : List Expr) →
    ((tokensAll scopes n es).flatMap fun ts => ',' :: ' ' :: ts.flatMap Token.canonicalChars) ++
      [')'] = NormalForm.laterChars (asWrittenAll scopes n (nullTestsAll es))
  | [] => rfl
  | e :: es => by
    rw [tokensAll, nullTestsAll, asWrittenAll, NormalForm.laterChars, List.flatMap_cons,
      flatMap_tokens scopes n e, joins_nullTests, ← flatMap_tokensAll scopes (n + joins e) es]
    simp

end

/-- The canonical text of an expression is the text of its normal form. -/
theorem text_eq_normalForm (e : Expr) : e.text = String.ofList e.normalForm.chars := by
  rw [text, Token.canonical, flatMap_tokens, normalForm]

end Expr

end LiveQuery
