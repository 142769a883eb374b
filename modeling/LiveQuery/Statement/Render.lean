import LiveQuery.Statement.Action
import LiveQuery.Statement.Token

/-!
# Rendering

Expressions, queries and actions as tokens.  A join becomes a correlated subquery whose table has
an alias: the table's name, `#`, and the number of the join in its statement, counted in the order
in which the joins begin.  A column is qualified by the alias of the innermost enclosing join to
its table, and by the table itself if there is none.

Comparing with the null literal would never hold, so such a comparison is rendered as a test for
null.

## Main definitions

* `Scopes`, `Scopes.qualifier`: the enclosing joins, and how they qualify a table.
* `Expr.joins`: how many joins an expression renders, hence where the next number starts.
* `Expr.size`: how many tokens it renders to, hence where the next one stands.
* `Site`, `Query.resultSites`, `Action.valueSites` and others: where expressions stand.
* `Expr.tokens`, `Query.tokens`, `Action.tokens`: the tokens.
* `Expr.text`, `Column.text`, `ResultColumn.name`: canonical texts and the names made from them.
* `Expr.prepare`, `Query.prepare`, `Action.prepare`: prepared texts.
-/

namespace LiveQuery

/-! ### Scopes -/

/-- The tables of the enclosing joins with their aliases, innermost first. -/
abbrev Scopes : Type := List (String × String)

/-- The name that qualifies the columns of a table. -/
def Scopes.qualifier (scopes : Scopes) (table : String) : String :=
  (scopes.lookup table).getD table

namespace Scopes

theorem qualifier_cons_self (t u : String) (scopes : Scopes) :
    qualifier ((t, u) :: scopes) t = u := by
  simp [qualifier]

theorem qualifier_cons_of_ne {t v : String} (h : v ≠ t) (u : String) (scopes : Scopes) :
    qualifier ((t, u) :: scopes) v = scopes.qualifier v := by
  rw [qualifier, List.lookup_cons, beq_eq_false_iff_ne.mpr h, qualifier]

end Scopes

/-- The token of a column under some enclosing joins. -/
def Column.token (scopes : Scopes) (c : Column) : Token :=
  .column (scopes.qualifier c.table) c.name

/-- The alias of the join with a given number. -/
def joinAlias (table : String) (number : Nat) : String := table ++ "#" ++ toString number

namespace Expr

/-! ### Counting joins -/

mutual

/-- How many joins an expression renders.  The arguments of the current moment are not
rendered. -/
def joins : Expr → Nat
  | value _ => 0
  | column _ => 0
  | unary _ e => joins e
  | binary _ l r => joins l + joins r
  | call .now _ => 0
  | call _ args => joinsAll args
  | join _ _ inner => joins inner + 1

/-- How many joins some expressions render. -/
def joinsAll : List Expr → Nat
  | [] => 0
  | e :: es => joins e + joinsAll es

end

/-! ### Tests for null -/

/-- The test for null that a comparison with the null literal stands for: the operator and
whether the left operand is the one tested.  A null literal on the right is seen first. -/
def nullTest? (op : BinaryOp) (left right : Expr) : Option (UnaryOp × Bool) :=
  let test := fun op => if right.isNullLiteral then some (op, true)
    else if left.isNullLiteral then some (op, false) else none
  match op with
  | .equal => test .isNull
  | .notEqual => test .isNotNull
  | _ => none

/-! ### Counting tokens -/

mutual

/-- How many tokens an expression renders to, whatever joins enclose it. -/
def size : Expr → Nat
  | value _ => 1
  | column _ => 1
  | unary _ e => size e + 3
  | binary op l r =>
    match nullTest? op l r with
    | some (_, true) => size l + 3
    | some (_, false) => size r + 3
    | none => size l + size r + 3
  | call .now _ => 1
  | call _ args => sizeAll args - 1 + 2
  | join _ _ inner => size inner + 11

/-- How many tokens some expressions render to, with a token behind each. -/
def sizeAll : List Expr → Nat
  | [] => 0
  | e :: es => size e + 1 + sizeAll es

end

/-! ### Tokens -/

/-- The tokens of a value. -/
def valueTokens : Value → List Token
  | .null => [.keyword .null]
  | v => [.literal v]

/-- The tokens around one operand. -/
def unaryTokens (operand : List Token) : UnaryOp → List Token
  | .not => .keyword .openParen :: .keyword .not :: (operand ++ [.keyword .closeParen])
  | .negate => .keyword .openParen :: .keyword .negate :: (operand ++ [.keyword .closeParen])
  | .isNull => .keyword .openParen :: (operand ++ [.keyword .isNull, .keyword .closeParen])
  | .isNotNull => .keyword .openParen :: (operand ++ [.keyword .isNotNull, .keyword .closeParen])

mutual

/-- The tokens of an expression under some enclosing joins, when `n` joins of the statement have
begun before it. -/
def tokens (scopes : Scopes) (n : Nat) : Expr → List Token
  | value v => valueTokens v
  | column c => [c.token scopes]
  | unary op e => unaryTokens (tokens scopes n e) op
  | binary op l r =>
    let left := tokens scopes n l
    let right := tokens scopes (n + joins l) r
    match nullTest? op l r with
    | some (test, true) => unaryTokens left test
    | some (test, false) => unaryTokens right test
    | none => .keyword .openParen :: (left ++ .keyword (.operator op) ::
        (right ++ [.keyword .closeParen]))
  | call .now _ => [.keyword .now]
  | call f args =>
    .keyword (.call f) :: (Token.separated (tokensAll scopes n args) ++ [.keyword .closeParen])
  | join source target inner =>
    let row := joinAlias target.table (n + 1)
    let within := (target.table, row) :: scopes
    .keyword .openParen :: .keyword .select :: (tokens within (n + 1) inner ++
      [.keyword .from, .name target.table, .keyword .as, .name row, .keyword .where,
        target.token within, .keyword (.operator .equal), source.token scopes,
        .keyword .closeParen])

/-- The tokens of each of some expressions rendered one after the other. -/
def tokensAll (scopes : Scopes) (n : Nat) : List Expr → List (List Token)
  | [] => []
  | e :: es => tokens scopes n e :: tokensAll scopes (n + joins e) es

end

/-- The canonical text of an expression. -/
def text (e : Expr) : String := Token.canonical (e.tokens [] 0)

/-- The prepared text of an expression. -/
def prepare (e : Expr) : Prepared := Token.prepare (e.tokens [] 0)

end Expr

/-- The canonical text of a column. -/
def Column.text (c : Column) : String := Token.canonical [c.token []]

/-- The name of a result: the one given, or the canonical text. -/
def ResultColumn.name (r : ResultColumn) : String := r.label.getD r.expr.text

/-! ### Sites -/

/-- An expression in a statement. -/
structure Site where
  /-- The expression. -/
  expr : Expr
  /-- How many tokens stand before it. -/
  index : Nat
  /-- How many joins of the statement have begun before it. -/
  joins : Nat
deriving DecidableEq, Repr

namespace Site

/-- Some expressions with `gap` tokens between them, with `index` tokens and `n` joins before the
first one. -/
def list (gap index n : Nat) : List Expr → List Site
  | [] => []
  | e :: es => ⟨e, index, n⟩ :: list gap (index + e.size + gap) (n + e.joins) es

/-- The number of tokens before what follows the expression. -/
def finish (s : Site) : Nat := s.index + s.expr.size

end Site

/-! ### Queries -/

namespace Query

/-- The names of the results. -/
def names (q : Query) : List String := q.results.map ResultColumn.name

/-- The tokens of the results. -/
def resultTokens (q : Query) : List Token :=
  if q.results.isEmpty then [.keyword .star]
  else
    Token.separated <| List.zipWith (fun name expr => expr ++ [.keyword .as, .name name])
      q.names (Expr.tokensAll [] 0 (q.results.map ResultColumn.expr))

/-- The tokens of the root tables. -/
def rootTokens (q : Query) : List Token :=
  if q.rootTables.isEmpty then []
  else .keyword .from :: Token.separated (q.rootTables.toList.map fun t => [.name t])

/-- The tokens of conditions that all have to hold. -/
def conditionTokens : List (List Token) → List Token
  | [] => []
  | first :: rest => .keyword .where :: (first ++ rest.flatMap fun p => .keyword .and :: p)

/-- The tokens of sort keys. -/
def orderTokens (keys : List SortKey) (exprs : List (List Token)) : List Token :=
  if keys.isEmpty then []
  else
    .keyword .orderBy :: Token.separated
      (List.zipWith (fun key expr => expr ++ [.keyword (.direction key.direction)]) keys exprs)

/-- The tokens of a query. -/
def tokens (q : Query) : List Token :=
  let n := Expr.joinsAll (q.results.map ResultColumn.expr)
  let m := n + Expr.joinsAll q.predicates
  .keyword .select :: (q.resultTokens ++ q.rootTokens ++
    conditionTokens (Expr.tokensAll [] n q.predicates) ++
    orderTokens q.order (Expr.tokensAll [] m (q.order.map SortKey.expr)))

/-- The prepared text of a query. -/
def prepare (q : Query) : Prepared := Token.prepare q.tokens

/-- The results in the text of a query. -/
def resultSites (q : Query) : List Site := Site.list 3 1 0 (q.results.map ResultColumn.expr)

/-- The predicates in the text of a query. -/
def predicateSites (q : Query) : List Site :=
  Site.list 1 (q.resultTokens.length + q.rootTokens.length + 2)
    (Expr.joinsAll (q.results.map ResultColumn.expr)) q.predicates

/-- The sort keys in the text of a query. -/
def orderSites (q : Query) : List Site :=
  let predicates := conditionTokens (Expr.tokensAll [] 0 q.predicates)
  Site.list 2 (q.resultTokens.length + q.rootTokens.length + predicates.length + 2)
    (Expr.joinsAll (q.results.map ResultColumn.expr) + Expr.joinsAll q.predicates)
    (q.order.map SortKey.expr)

end Query

/-! ### Actions -/

namespace Action

/-- The tokens of the predicate of an action, when `n` joins have begun before it. -/
def predicateTokens (n : Nat) (predicate : Option Expr) : List Token :=
  Query.conditionTokens (Expr.tokensAll [] n predicate.toList)

/-- The tokens of an action. -/
def tokens : Action → List Token
  | insert table values =>
    .keyword .insertInto :: .name table ::
      if values.isEmpty then [.keyword .defaultValues]
      else
        .keyword .columns :: (Token.separated (values.keys.map fun c => [.name c]) ++
          .keyword .values :: (Token.separated (Expr.tokensAll [] 0 values.values) ++
          [.keyword .closeParen]))
  | update table values predicate =>
    .keyword .update :: .name table :: .keyword .set ::
      (Token.separated (List.zipWith
          (fun c expr => .name c :: .keyword (.operator .equal) :: expr)
          values.keys (Expr.tokensAll [] 0 values.values)) ++
        predicateTokens (Expr.joinsAll values.values) predicate)
  | delete table predicate =>
    .keyword .deleteFrom :: .name table :: predicateTokens 0 predicate

/-- The prepared text of an action. -/
def prepare (a : Action) : Prepared := Token.prepare a.tokens

/-- The values in the text of an insertion or update. -/
def valueSites : Action → List Site
  | insert _ values => Site.list 1 (2 * values.toList.length + 3) 0 values.values
  | update _ values _ => Site.list 3 5 0 values.values
  | delete .. => []

/-- The predicate in the text of an update or deletion. -/
def predicateSites : Action → List Site
  | insert .. => []
  | update _ values predicate =>
    Site.list 1 (Expr.sizeAll values.values + 2 * values.toList.length + 3)
      (Expr.joinsAll values.values) predicate.toList
  | delete _ predicate => Site.list 1 3 0 predicate.toList

end Action

end LiveQuery
