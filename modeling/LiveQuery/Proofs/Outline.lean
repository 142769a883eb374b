import LiveQuery.Statement.Render

/-!
# The names in a statement

What the text of a statement says about names, found by reading its tokens from left to right: the
columns with the names that qualify them, the tables that rows come from with the names that they
go by, and which brackets stand inside which.  The reader knows the grammar of statements and
nothing of expressions: it opens and closes brackets, takes the names between FROM and WHERE for
tables and, behind AS, for their aliases, and passes over everything else.

So there are two accounts of the names in a statement, one of the text and one of the expressions
that it was rendered from, and what is said about rendering compares them.

## Main definitions

* `Piece`, `Outline`: the names in a text.
* `Bracket.readToken`, `Outline.ofTokens`: reading them.
* `Statement`: everything that is rendered.

## Main results

* `Expr.foldl_tokens`: reading an expression adds its pieces to the bracket around it.
* `Statement.outline_eq`: the outline of a statement.
-/

namespace LiveQuery

/-! ### Outlines -/

/-- A part of a statement, as far as names go. -/
inductive Piece where
  /-- A column behind the name that qualifies it. -/
  | column (qualifier name : String)
  /-- A subquery: the tables of its FROM clause with the names that they go by, and what stands
  between its brackets. -/
  | subquery (sources : Scopes) (inside : List Piece)

/-- The names in a statement: the tables that its own rows come from, and everything else. -/
structure Outline where
  /-- The tables with the names that they go by. -/
  sources : Scopes
  /-- The columns and subqueries, in the order of the text. -/
  pieces : List Piece

/-! ### Reading tokens -/

/-- A reader that passes over commas reads tokens between commas as if these were not there. -/
theorem Token.foldl_separated {σ : Type} {read : σ → Token → σ}
    (hcomma : ∀ s, read s (.keyword .comma) = s) (ls : List (List Token)) (s : σ) :
    (separated ls).foldl read s = ls.flatten.foldl read s := by
  induction ls generalizing s with
  | nil => rfl
  | cons piece rest ih =>
    cases rest with
    | nil => simp [separated]
    | cons next rest => simp [separated, List.foldl_append, hcomma, ih]

/-- What a name stands for, by the words before it. -/
inductive Role where
  /-- Nothing that rows come from: a result, or a column that is written. -/
  | other
  /-- A table that rows come from. -/
  | table
  /-- The name that the last table goes by. -/
  | row
deriving DecidableEq

/-- A bracket that is open, with what has been read inside it. -/
structure Bracket where
  /-- What the next name stands for. -/
  role : Role
  /-- The tables so far, with the names that they go by. -/
  sources : Scopes
  /-- The columns and subqueries so far. -/
  pieces : List Piece

namespace Bracket

/-- A bracket that was just opened. -/
def opened : Bracket := ⟨.other, [], []⟩

/-- The bracket with more pieces in it. -/
def add (b : Bracket) (more : List Piece) : Bracket := { b with pieces := b.pieces ++ more }

/-- What a bracket is to the text around it: a subquery, if rows come from some table. -/
def closed (b : Bracket) : List Piece :=
  if b.sources.isEmpty then b.pieces else [.subquery b.sources b.pieces]

/-- The bracket after a name. -/
def name (b : Bracket) (n : String) : Bracket :=
  match b.role with
  | .other => b
  | .table => { b with sources := b.sources ++ [(n, n)] }
  | .row =>
    { b with
      role := .table
      sources := b.sources.dropLast ++ (b.sources.getLast?.map fun s => (s.1, n)).toList }

/-- The bracket after a word that opens and closes nothing. -/
def word (b : Bracket) : Keyword → Bracket
  | .from | .update | .deleteFrom => { b with role := .table }
  | .as => if b.role = .table then { b with role := .row } else b
  | .where | .set | .orderBy => { b with role := .other }
  | _ => b

/-- The open brackets after a token, innermost first. -/
def readToken : List Bracket → Token → List Bracket
  | [], _ => []
  | b :: rest, .column q n => b.add [.column q n] :: rest
  | b :: rest, .name n => b.name n :: rest
  | b :: rest, .literal _ => b :: rest
  | b :: rest, .keyword k =>
    match k, rest with
    | .openParen, rest => opened :: b :: rest
    | .call _, rest => opened :: b :: rest
    | .columns, rest => opened :: b :: rest
    | .closeParen, outer :: rest => outer.add b.closed :: rest
    | .values, outer :: rest => opened :: outer.add b.closed :: rest
    | k, rest => b.word k :: rest

end Bracket

/-- The names in a text: the text as a whole is a bracket. -/
def Outline.ofTokens (tokens : List Token) : Outline :=
  match tokens.foldl Bracket.readToken [.opened] with
  | [b] => ⟨b.sources, b.pieces⟩
  | _ => ⟨[], []⟩

namespace Bracket

@[simp] theorem role_add (b : Bracket) (ps : List Piece) : (b.add ps).role = b.role := rfl

@[simp] theorem add_nil (b : Bracket) : b.add [] = b := by
  simp [add]

@[simp] theorem add_add (b : Bracket) (ps qs : List Piece) :
    (b.add ps).add qs = b.add (ps ++ qs) := by
  simp [add]

@[simp] theorem closed_add_opened (ps : List Piece) : (opened.add ps).closed = ps := by
  simp [closed, add, opened]

/-- Commas are passed over. -/
@[simp] theorem readToken_comma (s : List Bracket) : readToken s (.keyword .comma) = s := by
  cases s with
  | nil => rfl
  | cons b rest => cases rest <;> rfl

theorem foldl_separated (ls : List (List Token)) (s : List Bracket) :
    (Token.separated ls).foldl readToken s = ls.flatten.foldl readToken s :=
  Token.foldl_separated readToken_comma ls s

/-- What is between brackets that hold no tables is read as if there were no brackets. -/
theorem foldl_unaryTokens {operand : List Token} {ps : List Piece}
    (h : ∀ b rest, operand.foldl readToken (b :: rest) = b.add ps :: rest) (op : UnaryOp)
    (b : Bracket) (rest : List Bracket) :
    (Expr.unaryTokens operand op).foldl readToken (b :: rest) = b.add ps :: rest := by
  cases op <;> simp [Expr.unaryTokens, List.foldl_append, readToken, word, h]

end Bracket

/-! ### Expressions -/

namespace Expr

/-- A comparison that is rendered as a test for null has the null literal as its other operand. -/
theorem nullTest?_eq_some {op : BinaryOp} {l r : Expr} {test : UnaryOp} {onLeft : Bool}
    (h : nullTest? op l r = some (test, onLeft)) :
    onLeft = true ∧ r = .null ∨ onLeft = false ∧ l = .null := by
  have hnull : ∀ e : Expr, e.isNullLiteral = true → e = .null := by
    intro e he
    unfold isNullLiteral at he
    split at he
    · rfl
    · cases he
  by_cases hr : r.isNullLiteral = true
  · refine Or.inl ⟨?_, hnull r hr⟩
    cases op <;> simp_all [nullTest?]
  · refine Or.inr ?_
    by_cases hl : l.isNullLiteral = true
    · refine ⟨?_, hnull l hl⟩
      cases op <;> simp_all [nullTest?]
    · cases op <;> simp_all [nullTest?]

mutual

/-- The names in the text of an expression under some enclosing joins, when `n` joins of the
statement have begun before it. -/
def pieces (scopes : Scopes) (n : Nat) : Expr → List Piece
  | value _ => []
  | column c => [.column (scopes.qualifier c.table) c.name]
  | unary _ e => pieces scopes n e
  | binary _ l r => pieces scopes n l ++ pieces scopes (n + joins l) r
  | call .now _ => []
  | call _ args => piecesAll scopes n args
  | join source target inner =>
    let row := joinAlias target.table (n + 1)
    let within := (target.table, row) :: scopes
    [.subquery [(target.table, row)] (pieces within (n + 1) inner ++
      [.column (Scopes.qualifier within target.table) target.name,
        .column (scopes.qualifier source.table) source.name])]

/-- The names in the texts of some expressions that are rendered one after the other. -/
def piecesAll (scopes : Scopes) (n : Nat) : List Expr → List Piece
  | [] => []
  | e :: es => pieces scopes n e ++ piecesAll scopes (n + joins e) es

end

theorem tokens_call {f : Builtin} (hf : f ≠ .now) (scopes : Scopes) (n : Nat) (args : List Expr) :
    tokens scopes n (call f args) = .keyword (.call f) ::
      (Token.separated (tokensAll scopes n args) ++ [.keyword .closeParen]) := by
  cases f <;> first | exact absurd rfl hf | rfl

theorem pieces_call {f : Builtin} (hf : f ≠ .now) (scopes : Scopes) (n : Nat) (args : List Expr) :
    pieces scopes n (call f args) = piecesAll scopes n args := by
  cases f <;> first | exact absurd rfl hf | rfl

open LiveQuery.Bracket in
mutual

/-- **Reading an expression adds its pieces to the bracket around it.**  The brackets that the
expression opens are closed again, and none of those around it is looked at. -/
theorem foldl_tokens (scopes : Scopes) (n : Nat) : (e : Expr) → (b : Bracket) →
    (rest : List Bracket) →
    (e.tokens scopes n).foldl readToken (b :: rest) = b.add (e.pieces scopes n) :: rest
  | value v, b, rest => by
    cases v <;> simp [tokens, valueTokens, pieces, readToken, word]
  | column c, b, rest => rfl
  | unary op e, b, rest => foldl_unaryTokens (foldl_tokens scopes n e) op b rest
  | binary op l r, b, rest => by
    have hl := foldl_tokens scopes n l
    have hr := foldl_tokens scopes (n + joins l) r
    rw [tokens, pieces]
    rcases htest : nullTest? op l r with _ | ⟨test, onLeft⟩
    · simp [List.foldl_append, readToken, word, hl, hr]
    · rcases nullTest?_eq_some htest with ⟨rfl, rfl⟩ | ⟨rfl, rfl⟩
      · simpa [null, pieces] using foldl_unaryTokens hl test b rest
      · simpa [null, pieces] using foldl_unaryTokens hr test b rest
  | call f args, b, rest => by
    by_cases hf : f = .now
    · subst hf
      simp [tokens, pieces, readToken, word]
    · have hargs := foldl_tokensAll scopes n args
      rw [tokens_call hf, pieces_call hf]
      simp [List.foldl_append, foldl_separated, readToken, hargs]
  | join source target inner, b, rest => by
    have hinner := foldl_tokens
      ((target.table, joinAlias target.table (n + 1)) :: scopes) (n + 1) inner
    rw [tokens, pieces]
    simp [List.foldl_append, readToken, word, hinner, Column.token]
    simp [name, add, opened, closed]

/-- Reading expressions next to each other adds their pieces in turn. -/
theorem foldl_tokensAll (scopes : Scopes) (n : Nat) : (es : List Expr) → (b : Bracket) →
    (rest : List Bracket) →
    (tokensAll scopes n es).flatten.foldl readToken (b :: rest) =
      b.add (piecesAll scopes n es) :: rest
  | [], b, rest => by simp [tokensAll, piecesAll]
  | e :: es, b, rest => by
    rw [tokensAll, piecesAll, List.flatten_cons, List.foldl_append, foldl_tokens scopes n e,
      foldl_tokensAll scopes _ es, add_add]

end

theorem piecesAll_append (scopes : Scopes) (n : Nat) (es es' : List Expr) :
    piecesAll scopes n (es ++ es') =
      piecesAll scopes n es ++ piecesAll scopes (n + joinsAll es) es' := by
  induction es generalizing n with
  | nil => simp [piecesAll, joinsAll]
  | cons e es ih => simp [piecesAll, joinsAll, ih, Nat.add_assoc]

end Expr

/-! ### Parts of statements -/

namespace Bracket

open LiveQuery.Expr

variable {b : Bracket} {rest : List Bracket}

/-- Texts that come with every one of some expressions and say nothing about names leave their
pieces as they are. -/
theorem foldl_zipWith {α : Type} {f : α → List Token → List Token}
    (hf : ∀ a (b : Bracket) (n : Nat) (e : Expr), b.role = .other →
      (f a (e.tokens [] n)).foldl readToken (b :: rest) = b.add (e.pieces [] n) :: rest)
    (n : Nat) {as : List α} {es : List Expr} (hlength : as.length = es.length)
    (hb : b.role = .other) :
    (Token.separated (List.zipWith f as (tokensAll [] n es))).foldl readToken (b :: rest) =
      b.add (piecesAll [] n es) :: rest := by
  rw [foldl_separated]
  induction es generalizing as n b with
  | nil =>
    obtain rfl := List.length_eq_zero_iff.mp hlength
    simp [piecesAll]
  | cons e es ih =>
    obtain ⟨a, as, rfl⟩ := List.exists_cons_of_length_eq_add_one hlength
    have hrest := ih (n + joins e) (b := b.add (e.pieces [] n)) (Nat.succ.inj hlength) hb
    rw [tokensAll, List.zipWith_cons_cons, List.flatten_cons, List.foldl_append, hf a b n e hb,
      hrest, piecesAll, add_add]

/-- Names are passed over where they stand for nothing that rows come from. -/
theorem foldl_names_of_other (ns : List String) (hb : b.role = .other) :
    (Token.separated (ns.map fun n => [.name n])).foldl readToken (b :: rest) = b :: rest := by
  rw [foldl_separated]
  induction ns with
  | nil => rfl
  | cons n ns ih => simpa [readToken, name, hb] using ih

/-- In a FROM clause they are tables. -/
theorem foldl_names_of_table (ts : List String) (hb : b.role = .table) :
    (Token.separated (ts.map fun t => [.name t])).foldl readToken (b :: rest) =
      { b with sources := b.sources ++ ts.map fun t => (t, t) } :: rest := by
  rw [foldl_separated]
  induction ts generalizing b with
  | nil => simp
  | cons t ts ih =>
    have hrest := ih (b := { b with sources := b.sources ++ [(t, t)] }) hb
    simpa [readToken, name, hb] using hrest

/-- Reading some tokens adds some pieces.  It may matter to later names that they were read. -/
def Adds (tokens : List Token) (ps : List Piece) : Prop :=
  ∀ b rest, ∃ role, tokens.foldl readToken (b :: rest) = { b.add ps with role } :: rest

theorem Adds.append {ts ts' : List Token} {ps ps' : List Piece} (h : Adds ts ps)
    (h' : Adds ts' ps') : Adds (ts ++ ts') (ps ++ ps') := by
  intro b rest
  obtain ⟨role, h⟩ := h b rest
  obtain ⟨role', h'⟩ := h' { b.add ps with role } rest
  refine ⟨role', ?_⟩
  rw [List.foldl_append, h, h']
  simp [add]

theorem adds_nil : Adds [] [] := fun b _ => ⟨b.role, by simp⟩

theorem adds_conditionTokens (n : Nat) (es : List Expr) :
    Adds (Query.conditionTokens (tokensAll [] n es)) (piecesAll [] n es) := by
  have hand : ∀ (es : List Expr) (n : Nat) (b : Bracket) (rest : List Bracket),
      ((tokensAll [] n es).flatMap fun p => .keyword .and :: p).foldl readToken (b :: rest) =
        b.add (piecesAll [] n es) :: rest := by
    intro es
    induction es with
    | nil => intro n b rest; simp [tokensAll, piecesAll]
    | cons e es ih =>
      intro n b rest
      have hword : readToken (b :: rest) (.keyword .and) = b :: rest := by
        cases rest <;> rfl
      rw [tokensAll, List.flatMap_cons, List.cons_append, List.foldl_cons, hword,
        List.foldl_append, foldl_tokens, ih, piecesAll, add_add]
  intro b rest
  cases es with
  | nil => exact adds_nil b rest
  | cons e es =>
    refine ⟨.other, ?_⟩
    have hword : readToken (b :: rest) (.keyword .where) = { b with role := .other } :: rest := by
      cases rest <;> rfl
    rw [tokensAll, Query.conditionTokens, List.foldl_cons, hword, List.foldl_append, foldl_tokens,
      hand, piecesAll, add_add]
    rfl

theorem adds_orderTokens (n : Nat) (keys : List SortKey) :
    Adds (Query.orderTokens keys (tokensAll [] n (keys.map SortKey.expr)))
      (piecesAll [] n (keys.map SortKey.expr)) := by
  intro b rest
  rw [Query.orderTokens]
  split
  next hempty =>
    obtain rfl := List.isEmpty_iff.mp hempty
    exact adds_nil b rest
  next =>
    refine ⟨.other, ?_⟩
    have hword : readToken (b :: rest) (.keyword .orderBy) = { b with role := .other } :: rest := by
      cases rest <;> rfl
    rw [List.foldl_cons, hword, foldl_zipWith _ n (by simp) rfl]
    · rfl
    · intro key b n e _
      rw [List.foldl_append, foldl_tokens]
      cases rest <;> rfl

end Bracket

/-! ### Statements -/

/-- Everything that is rendered: statements, and expressions on their own. -/
inductive Statement where
  | expr (e : Expr)
  | query (q : Query)
  | action (a : Action)

namespace Statement

/-- The tokens of a statement. -/
def tokens : Statement → List Token
  | expr e => e.tokens [] 0
  | query q => q.tokens
  | action a => a.tokens

/-- The expressions in a statement, in the order of its text. -/
def exprs : Statement → List Expr
  | expr e => [e]
  | query q => q.exprs
  | action (.insert _ values) => values.values
  | action (.update _ values predicate) => values.values ++ predicate.toList
  | action (.delete _ predicate) => predicate.toList

/-- The tables whose rows the expressions of a statement are evaluated on: the root tables of a
query, and the table that is updated or deleted from. -/
def roots : Statement → List String
  | expr _ => []
  | query q => q.rootTables.toList
  | action (.insert ..) => []
  | action (.update table ..) => [table]
  | action (.delete table _) => [table]

/-- The names in a statement, as its text has them. -/
def outline (s : Statement) : Outline := .ofTokens s.tokens

open LiveQuery.Bracket LiveQuery.Expr

/-- What is read of a statement: its brackets are closed, and the last one is left. -/
def Holds (s : Statement) (sources : Scopes) (ps : List Piece) : Prop :=
  ∃ role, s.tokens.foldl readToken [opened] = [⟨role, sources, ps⟩]

theorem Holds.outline {s : Statement} {sources : Scopes} {ps : List Piece}
    (h : s.Holds sources ps) : s.outline = ⟨sources, ps⟩ := by
  obtain ⟨role, h⟩ := h
  rw [Statement.outline, Outline.ofTokens, h]

theorem foldl_resultTokens (q : Query) :
    q.resultTokens.foldl readToken [opened] =
      [opened.add (piecesAll [] 0 (q.results.map ResultColumn.expr))] := by
  rw [Query.resultTokens]
  split
  next hempty =>
    rw [List.isEmpty_iff.mp hempty]
    rfl
  next =>
    refine foldl_zipWith ?_ 0 (by simp [Query.names]) rfl
    intro label b n e hb
    rw [List.foldl_append, foldl_tokens]
    simp [readToken, word, name, hb]

theorem foldl_rootTokens (q : Query) (b : Bracket) :
    ∃ role, q.rootTokens.foldl readToken [b] =
      [{ b with role, sources := b.sources ++ q.rootTables.toList.map fun t => (t, t) }] := by
  rw [Query.rootTokens]
  split
  next hempty =>
    refine ⟨b.role, ?_⟩
    rw [List.isEmpty_iff.mp hempty]
    simp
  next =>
    refine ⟨.table, ?_⟩
    have hword : readToken [b] (.keyword .from) = [{ b with role := .table }] := rfl
    rw [List.foldl_cons, hword, foldl_names_of_table _ rfl]

theorem holds_query (q : Query) :
    (query q).Holds (q.rootTables.toList.map fun t => (t, t)) (piecesAll [] 0 q.exprs) := by
  have hselect : readToken [opened] (.keyword .select) = [opened] := rfl
  obtain ⟨role, hroots⟩ := foldl_rootTokens q
    (opened.add (piecesAll [] 0 (q.results.map ResultColumn.expr)))
  obtain ⟨role', hrest⟩ := (adds_conditionTokens (joinsAll (q.results.map ResultColumn.expr))
    q.predicates).append (adds_orderTokens (joinsAll (q.results.map ResultColumn.expr) +
      joinsAll q.predicates) q.order) _ []
  refine ⟨role', ?_⟩
  rw [tokens, Query.tokens, List.foldl_cons, hselect, List.append_assoc, List.append_assoc,
    List.foldl_append, foldl_resultTokens, List.foldl_append, hroots, hrest, Query.exprs,
    List.append_assoc, piecesAll_append, piecesAll_append, Nat.zero_add]
  rfl

theorem holds_insert (table : String) (values : Assignments) :
    (action (.insert table values)).Holds [] (piecesAll [] 0 values.values) := by
  refine ⟨.other, ?_⟩
  rw [tokens, Action.tokens]
  split
  next hempty =>
    rw [SortedMap.values, List.isEmpty_iff.mp hempty]
    rfl
  next =>
    have hinto : readToken (readToken [opened] (.keyword .insertInto)) (.name table) = [opened] :=
      rfl
    have hcolumns : readToken [opened] (.keyword .columns) = [opened, opened] := rfl
    have hvalues : readToken [opened, opened] (.keyword .values) = [opened, opened] := rfl
    rw [List.foldl_cons, List.foldl_cons, hinto, List.foldl_cons, hcolumns, List.foldl_append,
      foldl_names_of_other _ rfl, List.foldl_cons, hvalues, List.foldl_append,
      foldl_separated, foldl_tokensAll]
    simp [readToken, add, opened, closed]

theorem holds_update (table : String) (values : Assignments) (predicate : Option Expr) :
    (action (.update table values predicate)).Holds [(table, table)]
      (piecesAll [] 0 (values.values ++ predicate.toList)) := by
  have hset : readToken (readToken (readToken [opened] (.keyword .update)) (.name table))
      (.keyword .set) = [⟨.other, [(table, table)], []⟩] := rfl
  have hvalues : (Token.separated (List.zipWith
      (fun c expr => .name c :: .keyword (.operator .equal) :: expr) values.keys
        (tokensAll [] 0 values.values))).foldl readToken [⟨.other, [(table, table)], []⟩] =
      [.add ⟨.other, [(table, table)], []⟩ (piecesAll [] 0 values.values)] := by
    refine foldl_zipWith ?_ 0 (by simp [SortedMap.keys, SortedMap.values]) rfl
    intro c b n e hb
    have hname : readToken (readToken [b] (.name c)) (.keyword (.operator .equal)) = [b] := by
      simp [readToken, name, hb, word]
    rw [List.foldl_cons, List.foldl_cons, hname, foldl_tokens]
  obtain ⟨role, h⟩ := adds_conditionTokens (joinsAll values.values) predicate.toList
    (.add ⟨.other, [(table, table)], []⟩ (piecesAll [] 0 values.values)) []
  refine ⟨role, ?_⟩
  rw [tokens, Action.tokens, Action.predicateTokens, List.foldl_cons, List.foldl_cons,
    List.foldl_cons, hset, List.foldl_append, hvalues, h, piecesAll_append, Nat.zero_add]
  rfl

theorem holds_delete (table : String) (predicate : Option Expr) :
    (action (.delete table predicate)).Holds [(table, table)]
      (piecesAll [] 0 predicate.toList) := by
  obtain ⟨role, h⟩ := adds_conditionTokens 0 predicate.toList ⟨.table, [(table, table)], []⟩ []
  exact ⟨role, h⟩

/-- **The outline of a statement** has its root tables under their own names, and the pieces of its
expressions one after the other. -/
theorem outline_eq (s : Statement) :
    s.outline = ⟨s.roots.map fun t => (t, t), piecesAll [] 0 s.exprs⟩ := by
  refine Holds.outline ?_
  cases s with
  | expr e => exact ⟨.other, by simp [tokens, foldl_tokens, exprs, piecesAll, roots, add, opened]⟩
  | query q => exact holds_query q
  | action a =>
    cases a with
    | insert table values => exact holds_insert table values
    | update table values predicate => exact holds_update table values predicate
    | delete table predicate => exact holds_delete table predicate

end Statement

end LiveQuery
