import LiveQuery.Proofs.Lexemes

/-!
# What stands in a prepared text

The fixed words of a statement are chosen by its renderer; names and values come from outside.  The
engine, which has nothing but the prepared text, tells the two apart as they were meant: it finds
exactly the names of the statement, in order, its placeholders are those of the values, and
everything else is fixed.

The names and values of a statement are listed from its expressions alone, in the order of the text.
That order is not always the order of the parts.  A join is written around its inner expression, so
the names of its columns come last, although the qualifier of the referring column is settled before
the inner expression is begun.  The null literal is fixed and no value, which is why a test for null
needs no case of its own: the operand that it drops has nothing to be listed.

## Main definitions

* `Expr.contents`, `Statement.contents`: names and values, in the order of the text.
* `Token.Spells`, `Token.Follows`: tokens that have some contents, and those that may follow others.

## Main results

* `Expr.spells_tokens`, `Statement.spells_tokens`: rendering spells the contents.
* `Statement.prepared_reads_contents`: what is read in the prepared text of a statement.
-/

namespace LiveQuery

/-! ### Contents -/

namespace Expr

mutual

/-- The names and values of an expression under some enclosing joins, when `n` joins of the
statement have begun before it. -/
def contents (scopes : Scopes) (n : Nat) : Expr → List Content
  | value .null => []
  | value v => [.value v]
  | column c => [.name (scopes.qualifier c.table), .name c.name]
  | unary _ e => contents scopes n e
  | binary _ l r => contents scopes n l ++ contents scopes (n + joins l) r
  | call .now _ => []
  | call _ args => (contentsAll scopes n args).flatten
  | join source target inner =>
    let row := joinAlias target.table (n + 1)
    contents ((target.table, row) :: scopes) (n + 1) inner ++
      [.name target.table, .name row, .name row, .name target.name,
        .name (scopes.qualifier source.table), .name source.name]

/-- The names and values of each of some expressions that are rendered one after the other. -/
def contentsAll (scopes : Scopes) (n : Nat) : List Expr → List (List Content)
  | [] => []
  | e :: es => contents scopes n e :: contentsAll scopes (n + joins e) es

end

theorem contents_call {f : Builtin} (hf : f ≠ .now) (scopes : Scopes) (n : Nat)
    (args : List Expr) :
    contents scopes n (call f args) = (contentsAll scopes n args).flatten := by
  cases f <;> first | exact absurd rfl hf | rfl

end Expr

namespace Statement

open LiveQuery.Expr

/-- The names and values of a statement: tables, aliases, columns, results and all values, in the
order of the text. -/
def contents : Statement → List Content
  | expr e => e.contents [] 0
  | query q =>
    let results := q.results.map ResultColumn.expr
    let order := q.order.map SortKey.expr
    (List.zipWith (fun name cs => cs ++ [.name name]) q.names (contentsAll [] 0 results)).flatten ++
      q.rootTables.toList.map .name ++
      (contentsAll [] (joinsAll results) q.predicates).flatten ++
      (contentsAll [] (joinsAll results + joinsAll q.predicates) order).flatten
  | action (.insert table values) =>
    .name table :: (values.keys.map .name ++ (contentsAll [] 0 values.values).flatten)
  | action (.update table values predicate) =>
    .name table :: ((List.zipWith (fun c cs => .name c :: cs) values.keys
        (contentsAll [] 0 values.values)).flatten ++
      (contentsAll [] (joinsAll values.values) predicate.toList).flatten)
  | action (.delete table predicate) =>
    .name table :: (contentsAll [] 0 predicate.toList).flatten

end Statement

/-! ### Tokens with contents -/

namespace Token

variable {ts us : List Token} {cs ds : List Content}

/-- Some tokens have some contents, keep their names apart, and have no value that is null. -/
structure Spells (tokens : List Token) (cs : List Content) : Prop where
  apart : Apart tokens
  contents_eq : tokens.flatMap contents = cs
  null_notMem : literal .null ∉ tokens

/-- Some tokens with some contents may follow any others, for they do not begin with a name. -/
structure Follows (tokens : List Token) (cs : List Content) : Prop extends Spells tokens cs where
  isNamed_head : ∀ t ∈ tokens.head?, t.isNamed = false

theorem follows_nil : Follows [] [] :=
  ⟨⟨.nil, rfl, List.not_mem_nil⟩, fun _ h => absurd h (Option.not_mem_none _)⟩

/-- A fixed word may follow anything, and anything may follow it. -/
theorem Spells.keyword (h : Spells ts cs) (k : Keyword) : Follows (.keyword k :: ts) cs where
  apart := List.isChain_cons.mpr ⟨fun _ _ hnamed => absurd hnamed Bool.false_ne_true, h.apart⟩
  contents_eq := h.contents_eq
  null_notMem := by simpa using h.null_notMem
  isNamed_head t ht := by
    obtain rfl := Option.some.inj ht
    rfl

/-- What may follow anything may follow some tokens. -/
theorem Spells.append (h : Spells ts cs) (h' : Follows us ds) : Spells (ts ++ us) (cs ++ ds) where
  apart := h.apart.append h'.apart fun _ _ u hu _ => h'.isNamed_head u hu
  contents_eq := by rw [List.flatMap_append, h.contents_eq, h'.contents_eq]
  null_notMem := List.not_mem_append h.null_notMem h'.null_notMem

theorem Follows.append (h : Follows ts cs) (h' : Follows us ds) :
    Follows (ts ++ us) (cs ++ ds) where
  toSpells := h.toSpells.append h'
  isNamed_head t ht := by
    cases ts with
    | nil => exact h'.isNamed_head t ht
    | cons u ts => exact h.isNamed_head t ht

theorem spells_name (n : String) : Spells [.name n] [.name n] := by
  exact ⟨.singleton _, rfl, by simp⟩

theorem spells_column (q n : String) : Spells [.column q n] [.name q, .name n] := by
  exact ⟨.singleton _, rfl, by simp⟩

/-- Commas keep pieces of a statement apart. -/
theorem spells_separated {tss : List (List Token)} {css : List (List Content)}
    (h : List.Forall₂ Spells tss css) : Spells (separated tss) css.flatten := by
  induction h with
  | nil => exact follows_nil.toSpells
  | @cons ts cs tss css h hrest ih =>
    cases hrest with
    | nil => simpa [separated] using h
    | cons h' hrest' => exact h.append (ih.keyword .comma)

end Token

namespace Query

open Token

theorem follows_conditionTokens {tss : List (List Token)} {css : List (List Content)}
    (h : List.Forall₂ Spells tss css) : Follows (conditionTokens tss) css.flatten := by
  cases h with
  | nil => exact follows_nil
  | @cons ts cs tss css h hrest =>
    have hands : Follows (tss.flatMap fun p => .keyword .and :: p) css.flatten := by
      induction hrest with
      | nil => exact follows_nil
      | cons h' _ ih => exact (h'.keyword .and).append ih
    exact (h.append hands).keyword .where

end Query

namespace Expr

open Token

theorem spells_unaryTokens {ts : List Token} {cs : List Content} (h : Spells ts cs)
    (op : UnaryOp) : Spells (unaryTokens ts op) cs := by
  have hclosed (k : Keyword) : Spells (ts ++ [.keyword k, .keyword .closeParen]) cs := by
    simpa using h.append ((follows_nil.keyword .closeParen).keyword k)
  have hclose : Spells (ts ++ [.keyword .closeParen]) cs := by
    simpa using h.append (follows_nil.keyword .closeParen)
  cases op with
  | not => exact ((hclose.keyword .not).keyword .openParen).toSpells
  | negate => exact ((hclose.keyword .negate).keyword .openParen).toSpells
  | isNull => exact ((hclosed .isNull).keyword .openParen).toSpells
  | isNotNull => exact ((hclosed .isNotNull).keyword .openParen).toSpells

theorem spells_valueTokens (scopes : Scopes) (n : Nat) (v : Value) :
    Spells (valueTokens v) (contents scopes n (value v)) := by
  cases v with
  | null => exact (follows_nil.keyword .null).toSpells
  | _ => exact ⟨.singleton _, rfl, by simp [valueTokens]⟩

mutual

/-- **Rendering an expression spells its contents.** -/
theorem spells_tokens (scopes : Scopes) (n : Nat) : (e : Expr) →
    Spells (e.tokens scopes n) (e.contents scopes n)
  | value v => spells_valueTokens scopes n v
  | column c => spells_column _ _
  | unary op e => spells_unaryTokens (spells_tokens scopes n e) op
  | binary op l r => by
    have hl := spells_tokens scopes n l
    have hr := spells_tokens scopes (n + joins l) r
    rw [tokens, contents]
    rcases htest : nullTest? op l r with _ | ⟨test, onLeft⟩
    · have hright := hr.append (follows_nil.keyword .closeParen)
      have hboth := (hl.append (hright.keyword (.operator op))).keyword .openParen
      simpa using hboth.toSpells
    · rcases nullTest?_eq_some htest with ⟨rfl, rfl⟩ | ⟨rfl, rfl⟩
      · simpa [null, contents] using spells_unaryTokens hl test
      · simpa [null, contents] using spells_unaryTokens hr test
  | call f args => by
    by_cases hf : f = .now
    · subst hf
      exact (follows_nil.keyword .now).toSpells
    · rw [tokens_call hf, contents_call hf]
      have hargs := spells_separated (spells_tokensAll scopes n args)
      simpa using ((hargs.append (follows_nil.keyword .closeParen)).keyword (.call f)).toSpells
  | join source target inner => by
    have hinner := spells_tokens
      ((target.table, joinAlias target.table (n + 1)) :: scopes) (n + 1) inner
    -- Every name of the join stands between two fixed words.
    have hsource := (spells_column (scopes.qualifier source.table) source.name).append
      (follows_nil.keyword .closeParen)
    have htarget := (spells_column (joinAlias target.table (n + 1)) target.name).append
      (hsource.keyword (.operator .equal))
    have hrow := (spells_name (joinAlias target.table (n + 1))).append (htarget.keyword .where)
    have htable := (spells_name target.table).append (hrow.keyword .as)
    have hjoin := ((hinner.append (htable.keyword .from)).keyword .select).keyword .openParen
    simpa [tokens, contents, Column.token, Scopes.qualifier_cons_self] using hjoin.toSpells

/-- So does rendering expressions one after the other. -/
theorem spells_tokensAll (scopes : Scopes) (n : Nat) : (es : List Expr) →
    List.Forall₂ Spells (tokensAll scopes n es) (contentsAll scopes n es)
  | [] => .nil
  | e :: es => .cons (spells_tokens scopes n e) (spells_tokensAll scopes _ es)

end

end Expr

/-! ### Statements -/

section Pieces

open LiveQuery.Token LiveQuery.Expr

/-- What comes with each of some pieces adds its own contents to theirs. -/
theorem forall₂_zipWith {α : Type} {f : α → List Token → List Token}
    {g : α → List Content → List Content}
    (hfg : ∀ a ts cs, Spells ts cs → Spells (f a ts) (g a cs)) (as : List α)
    {tss : List (List Token)} {css : List (List Content)} (h : List.Forall₂ Spells tss css) :
    List.Forall₂ Spells (List.zipWith f as tss) (List.zipWith g as css) := by
  induction h generalizing as with
  | nil => simp
  | @cons ts cs tss css h _ ih =>
    cases as with
    | nil => exact .nil
    | cons a as => exact .cons (hfg a ts cs h) (ih as)

theorem spells_names (ns : List String) :
    Spells (separated (ns.map fun n => [.name n])) (ns.map .name) := by
  have hnames : List.Forall₂ Spells (ns.map fun n => [.name n]) (ns.map fun n => [.name n]) := by
    induction ns with
    | nil => exact .nil
    | cons n ns ih => exact .cons (spells_name n) ih
  have hflatten : (ns.map fun n => [Content.name n]).flatten = ns.map .name :=
    (List.map_eq_flatMap.trans List.flatMap_def).symm
  exact hflatten ▸ spells_separated hnames

theorem spells_resultTokens (q : Query) :
    Spells q.resultTokens (List.zipWith (fun name cs => cs ++ [.name name]) q.names
      (contentsAll [] 0 (q.results.map ResultColumn.expr))).flatten := by
  rw [Query.resultTokens]
  split
  next hempty =>
    rw [List.isEmpty_iff.mp hempty]
    simpa [contentsAll] using (follows_nil.keyword .star).toSpells
  next =>
    refine spells_separated (forall₂_zipWith ?_ q.names (spells_tokensAll [] 0 _))
    intro name ts cs h
    exact h.append ((spells_name name).keyword .as)

theorem follows_rootTokens (q : Query) :
    Follows q.rootTokens (q.rootTables.toList.map .name) := by
  rw [Query.rootTokens]
  split
  next hempty =>
    rw [List.isEmpty_iff.mp hempty]
    exact follows_nil
  next => exact (spells_names q.rootTables.toList).keyword .from

theorem follows_orderTokens (n : Nat) (keys : List SortKey) :
    Follows (Query.orderTokens keys (tokensAll [] n (keys.map SortKey.expr)))
      (contentsAll [] n (keys.map SortKey.expr)).flatten := by
  have hkeys : List.Forall₂ Spells
      (List.zipWith (fun key expr => expr ++ [.keyword (.direction key.direction)]) keys
        (tokensAll [] n (keys.map SortKey.expr)))
      (contentsAll [] n (keys.map SortKey.expr)) := by
    induction keys generalizing n with
    | nil => exact .nil
    | cons key keys ih =>
      have hkey := (spells_tokens [] n key.expr).append
        (follows_nil.keyword (.direction key.direction))
      rw [List.append_nil] at hkey
      exact .cons hkey (ih _)
  rw [Query.orderTokens]
  split
  next hempty =>
    rw [List.isEmpty_iff.mp hempty]
    exact follows_nil
  next => exact (spells_separated hkeys).keyword .orderBy

theorem follows_predicateTokens (n : Nat) (predicate : Option Expr) :
    Follows (Action.predicateTokens n predicate) (contentsAll [] n predicate.toList).flatten :=
  Query.follows_conditionTokens (spells_tokensAll [] n predicate.toList)

end Pieces

namespace Statement

open LiveQuery.Token LiveQuery.Expr

theorem spells_query (q : Query) : Spells (query q).tokens (query q).contents := by
  have hpredicates := Query.follows_conditionTokens
    (spells_tokensAll [] (joinsAll (q.results.map ResultColumn.expr)) q.predicates)
  have horder := follows_orderTokens
    (joinsAll (q.results.map ResultColumn.expr) + joinsAll q.predicates) q.order
  have hclauses := ((spells_resultTokens q).append (follows_rootTokens q)).append hpredicates
  exact ((hclauses.append horder).keyword .select).toSpells

theorem spells_insert (table : String) (values : Assignments) :
    Spells (action (.insert table values)).tokens (action (.insert table values)).contents := by
  rw [tokens, Action.tokens]
  split
  next hempty =>
    rw [contents, SortedMap.keys, SortedMap.values, List.isEmpty_iff.mp hempty]
    have hdefaults := (spells_name table).append (follows_nil.keyword .defaultValues)
    exact (hdefaults.keyword .insertInto).toSpells
  next =>
    have hvalues := (spells_separated (spells_tokensAll [] 0 values.values)).append
      (follows_nil.keyword .closeParen)
    have hcolumns := (spells_names values.keys).append (hvalues.keyword .values)
    have hinsert := (spells_name table).append (hcolumns.keyword .columns)
    simpa [contents] using (hinsert.keyword .insertInto).toSpells

theorem spells_update (table : String) (values : Assignments) (predicate : Option Expr) :
    Spells (action (.update table values predicate)).tokens
      (action (.update table values predicate)).contents := by
  have hvalues : List.Forall₂ Spells
      (List.zipWith (fun c expr => .name c :: .keyword (.operator .equal) :: expr) values.keys
        (tokensAll [] 0 values.values))
      (List.zipWith (fun c cs => .name c :: cs) values.keys (contentsAll [] 0 values.values)) := by
    refine forall₂_zipWith ?_ values.keys (spells_tokensAll [] 0 values.values)
    intro c ts cs h
    exact (spells_name c).append (h.keyword (.operator .equal))
  have hset := (spells_separated hvalues).append
    (follows_predicateTokens (joinsAll values.values) predicate)
  exact (((spells_name table).append (hset.keyword .set)).keyword .update).toSpells

theorem spells_delete (table : String) (predicate : Option Expr) :
    Spells (action (.delete table predicate)).tokens
      (action (.delete table predicate)).contents :=
  (((spells_name table).append (follows_predicateTokens 0 predicate)).keyword .deleteFrom).toSpells

/-- **Rendering a statement spells its contents.** -/
theorem spells_tokens (s : Statement) : Spells s.tokens s.contents := by
  cases s with
  | expr e => exact e.spells_tokens [] 0
  | query q => exact spells_query q
  | action a =>
    cases a with
    | insert table values => exact spells_insert table values
    | update table values predicate => exact spells_update table values predicate
    | delete table predicate => exact spells_delete table predicate

/-- **What is read in the prepared text of a statement.**  It is what its tokens are written as:
the names of the statement, placeholders, and nothing else that is not fixed.  There are as many
placeholders as parameters, and with the parameters put to them in turn the names and values are
those of the statement, in order. -/
theorem prepared_reads_contents (s : Statement) :
    ∃ lexemes, Lexeme.scan? s.prepare.text.toList = some lexemes ∧
      lexemes = s.tokens.flatMap Token.lexemes ∧
      (∃ words : List String, (∀ w ∈ words, w = "." ∨ w = "?" ∨ ∃ k : Keyword, w = k.text) ∧
        Lexeme.outside lexemes = words.flatMap String.toList) ∧
      lexemes.count .placeholder = s.prepare.parameters.length ∧
      Lexeme.bind? lexemes s.prepare.parameters = some s.contents := by
  obtain ⟨hapart, hcontents, -⟩ := s.spells_tokens
  have hbind := bind?_prepare s.tokens
  rw [hcontents] at hbind
  rw [prepare_eq]
  exact ⟨_, scan?_prepare hapart, rfl, outside_lexemes s.tokens, Lexeme.count_of_bind? hbind,
    hbind⟩

end Statement

end LiveQuery
