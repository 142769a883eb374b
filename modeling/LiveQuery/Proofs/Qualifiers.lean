import LiveQuery.Engine.Check
import LiveQuery.Proofs.Aliases
import LiveQuery.Proofs.Writer

/-!
# Qualifiers

Which name qualifies a column in the text of a statement.  An expression says of every column in it
which joins it stands in: a join is around its target and its inner expression, and not around its
source, although all three are written between the brackets of its subquery.  The text says of every
column which subqueries it stands in, and of every subquery which table it looks into and which
alias this table has there.  The two fit together: a column is qualified by the alias of the
innermost join to its table that it stands in, and by the table itself if there is none.

## Main definitions

* `Occurrence`, `Expr.occurrences`: the columns of an expression and the joins around them.
* `Written`, `Outline.columns`: the columns of a text and the clauses around them.
* `Scopes.Qualifies`: the name for a table under some joins.
* `Occurrence.WrittenAs`: a column of an expression is a column of the text.

## Main results

* `Expr.occurrences_placed`: every column is written with the name that qualifies its table.
* `Statement.outline_rows`: the aliases have the numbers of their joins, so no two are the same.
* `Statement.names_scoped`: the names in a statement, and how they come about.
-/

namespace LiveQuery

/-! ### Columns of an expression -/

/-- A column in an expression, with the joins that it is written in. -/
structure Occurrence where
  /-- The column. -/
  column : Column
  /-- The tables of the joins that it is written in, innermost first. -/
  around : List String
  /-- Whether it is the source of the innermost one, and so stands outside of it. -/
  isSource : Bool

namespace Occurrence

/-- What counts for a column of what is around it: all, or all but the join of which it is the
source. -/
def inScope {α : Type} (o : Occurrence) (around : List α) : List α :=
  if o.isSource then around.tail else around

end Occurrence

namespace Expr

mutual

/-- The columns of an expression in the order in which they are rendered, with the joins around
them.  The arguments of the current moment are not rendered. -/
def occurrences (around : List String) : Expr → List Occurrence
  | value _ => []
  | column c => [⟨c, around, false⟩]
  | unary _ e => occurrences around e
  | binary _ l r => occurrences around l ++ occurrences around r
  | call .now _ => []
  | call _ args => occurrencesAll around args
  | join source target inner =>
    occurrences (target.table :: around) inner ++
      [⟨target, target.table :: around, false⟩, ⟨source, target.table :: around, true⟩]

/-- The columns of some expressions. -/
def occurrencesAll (around : List String) : List Expr → List Occurrence
  | [] => []
  | e :: es => occurrences around e ++ occurrencesAll around es

end

theorem occurrences_call {f : Builtin} (hf : f ≠ .now) (around : List String) (args : List Expr) :
    occurrences around (call f args) = occurrencesAll around args := by
  cases f <;> first | exact absurd rfl hf | rfl

theorem mem_occurrencesAll {around : List String} {es : List Expr} {o : Occurrence} :
    o ∈ occurrencesAll around es ↔ ∃ e ∈ es, o ∈ e.occurrences around := by
  induction es with
  | nil => simp [occurrencesAll]
  | cons e es ih => simp [occurrencesAll, ih]

end Expr

/-- The columns of a statement, in the order of its text. -/
def Statement.occurrences (s : Statement) : List Occurrence := Expr.occurrencesAll [] s.exprs

/-! ### Columns of a text -/

/-- A column in a text, with the subqueries that it is written in. -/
structure Written where
  /-- The name that qualifies it. -/
  qualifier : String
  /-- Its own name. -/
  name : String
  /-- The FROM clauses of the subqueries that it is written in, innermost first. -/
  clauses : List Scopes

namespace Piece

mutual

/-- The columns in a part of a text. -/
def columns (clauses : List Scopes) : Piece → List Written
  | column q n => [⟨q, n, clauses⟩]
  | subquery sources inside => columnsAll (sources :: clauses) inside

/-- The columns in some parts of a text. -/
def columnsAll (clauses : List Scopes) : List Piece → List Written
  | [] => []
  | p :: ps => columns clauses p ++ columnsAll clauses ps

end

mutual

/-- The tables that the subqueries in a part of a text look into, with their aliases. -/
def rows : Piece → Scopes
  | column _ _ => []
  | subquery sources inside => sources ++ rowsAll inside

/-- The tables that the subqueries in some parts of a text look into, with their aliases. -/
def rowsAll : List Piece → Scopes
  | [] => []
  | p :: ps => rows p ++ rowsAll ps

end

theorem columnsAll_append (clauses : List Scopes) (ps qs : List Piece) :
    columnsAll clauses (ps ++ qs) = columnsAll clauses ps ++ columnsAll clauses qs := by
  induction ps with
  | nil => rfl
  | cons p ps ih => rw [List.cons_append, columnsAll, columnsAll, ih, List.append_assoc]

theorem rowsAll_append (ps qs : List Piece) : rowsAll (ps ++ qs) = rowsAll ps ++ rowsAll qs := by
  induction ps with
  | nil => rfl
  | cons p ps ih => rw [List.cons_append, rowsAll, rowsAll, ih, List.append_assoc]

end Piece

namespace Outline

/-- The columns in the text of a statement. -/
def columns (o : Outline) : List Written := Piece.columnsAll [] o.pieces

/-- The tables that subqueries look into, with their aliases. -/
def rows (o : Outline) : Scopes := Piece.rowsAll o.pieces

end Outline

/-! ### Qualifiers -/

/-- The name by which columns of a table are qualified under some joins with aliases, innermost
first: the alias of the first join to the table, or the table itself if there is none. -/
def Scopes.Qualifies (scopes : Scopes) (table name : String) : Prop :=
  (∃ inside outside, scopes = inside ++ (table, name) :: outside ∧ ∀ s ∈ inside, s.1 ≠ table) ∨
    (name = table ∧ ∀ s ∈ scopes, s.1 ≠ table)

theorem Scopes.qualifies_qualifier (scopes : Scopes) (t : String) :
    scopes.Qualifies t (scopes.qualifier t) := by
  induction scopes with
  | nil => exact Or.inr ⟨rfl, nofun⟩
  | cons s scopes ih =>
    obtain ⟨u, alias'⟩ := s
    by_cases htu : t = u
    · subst htu
      rw [qualifier_cons_self]
      exact Or.inl ⟨[], scopes, rfl, nofun⟩
    · rw [qualifier_cons_of_ne htu]
      have hut : u ≠ t := Ne.symm htu
      rcases ih with ⟨inside, outside, hscopes, hinside⟩ | ⟨hname, hscopes⟩
      · refine Or.inl ⟨(u, alias') :: inside, outside, congrArg _ hscopes, ?_⟩
        exact List.forall_mem_cons.mpr ⟨hut, hinside⟩
      · exact Or.inr ⟨hname, List.forall_mem_cons.mpr ⟨hut, hscopes⟩⟩

/-- A column of an expression is a column of the text: under its own name, in subqueries on the
tables of the joins around it, and qualified by the name for its table under those joins that count
for it, with the aliases that the text gives them. -/
structure Occurrence.WrittenAs (o : Occurrence) (w : Written) : Prop where
  name : w.name = o.column.name
  around : w.clauses.map (List.map Prod.fst) = o.around.map ([·])
  qualifier : Scopes.Qualifies (o.inScope w.clauses).flatten o.column.table w.qualifier

/-! ### Columns under joins -/

/-- Aliases of joins, innermost first: their numbers grow inwards up to `n`. -/
inductive Scopes.Numbered : Nat → Scopes → Prop
  | nil (n : Nat) : Numbered n []
  | join {n k m : Nat} {scopes : Scopes} (t : String) (h : Numbered n scopes) (hnew : n < k)
      (hlast : k ≤ m) : Numbered m ((t, joinAlias t k) :: scopes)

/-- More joins may have begun. -/
theorem Scopes.Numbered.mono {n m : Nat} {scopes : Scopes} (h : Numbered n scopes) (hnm : n ≤ m) :
    Numbered m scopes := by
  cases h with
  | nil => exact .nil m
  | join t h hnew hlast => exact .join t h hnew (hlast.trans hnm)

/-- A column in some joins, and how it is written if these are their aliases. -/
structure Scopes.Writes (scopes : Scopes) (o : Occurrence) (w : Written) : Prop where
  name : w.name = o.column.name
  around : o.around = scopes.map Prod.fst
  clauses : w.clauses = scopes.map ([·])
  qualifier : w.qualifier = Scopes.qualifier (o.inScope scopes) o.column.table

theorem Occurrence.inScope_map {α β : Type} (f : α → β) (o : Occurrence) (around : List α) :
    o.inScope (around.map f) = (o.inScope around).map f := by
  unfold inScope
  split
  · exact List.map_tail.symm
  · rfl

theorem Scopes.Writes.writtenAs {scopes : Scopes} {o : Occurrence} {w : Written}
    (h : scopes.Writes o w) : o.WrittenAs w where
  name := h.name
  around := by
    rw [h.clauses, h.around, List.map_map, List.map_map]
    rfl
  qualifier := by
    rw [h.clauses, h.qualifier, Occurrence.inScope_map, ← List.flatMap_def,
      List.flatMap_singleton']
    exact Scopes.qualifies_qualifier _ _

/-- A column in joins with numbers of their own, and how it is written. -/
def Occurrence.Placed (o : Occurrence) (w : Written) : Prop :=
  ∃ n scopes, Scopes.Numbered n scopes ∧ scopes.Writes o w

namespace Expr

mutual

/-- **Every column is written with the name that qualifies its table.**  The induction is on the
expression; the joins around it are general, as a join is around its inner expression. -/
theorem occurrences_placed {scopes : Scopes} {n : Nat} (h : scopes.Numbered n) : (e : Expr) →
    List.Forall₂ Occurrence.Placed (e.occurrences (scopes.map Prod.fst))
      (Piece.columnsAll (scopes.map ([·])) (e.pieces scopes n))
  | value _ => .nil
  | column c => .cons ⟨n, scopes, h, rfl, rfl, rfl, rfl⟩ .nil
  | unary _ e => occurrences_placed h e
  | binary _ l r => by
    rw [occurrences, pieces, Piece.columnsAll_append]
    exact List.rel_append (occurrences_placed h l)
      (occurrences_placed (h.mono (Nat.le_add_right n (joins l))) r)
  | call f args => by
    by_cases hf : f = .now
    · subst hf
      exact .nil
    · rw [occurrences_call hf, pieces_call hf]
      exact occurrencesAll_placed h args
  | join source target inner => by
    have hin := Scopes.Numbered.join target.table h (Nat.lt_succ_self n) (Nat.le_refl _)
    have hinner := occurrences_placed hin inner
    rw [occurrences, pieces, Piece.columnsAll, Piece.columnsAll, List.append_nil, Piece.columns,
      Piece.columnsAll_append]
    exact List.rel_append hinner
      (.cons ⟨_, _, hin, rfl, rfl, rfl, rfl⟩ (.cons ⟨_, _, hin, rfl, rfl, rfl, rfl⟩ .nil))

/-- Columns of expressions next to each other are written one after the other. -/
theorem occurrencesAll_placed {scopes : Scopes} {n : Nat} (h : scopes.Numbered n) :
    (es : List Expr) →
    List.Forall₂ Occurrence.Placed (occurrencesAll (scopes.map Prod.fst) es)
      (Piece.columnsAll (scopes.map ([·])) (piecesAll scopes n es))
  | [] => .nil
  | e :: es => by
    rw [occurrencesAll, piecesAll, Piece.columnsAll_append]
    exact List.rel_append (occurrences_placed h e)
      (occurrencesAll_placed (h.mono (Nat.le_add_right n (joins e))) es)

end

/-! #### Numbers of joins -/

mutual

theorem length_joinTables : (e : Expr) → e.joinTables.length = e.joins
  | value _ => rfl
  | column _ => rfl
  | unary _ e => length_joinTables e
  | binary _ l r => by
    rw [joinTables, List.length_append, length_joinTables l, length_joinTables r, joins]
  | call f args => by
    have hargs := length_joinTablesAll args
    cases f <;> first | rfl | exact hargs
  | join _ _ inner => congrArg (· + 1) (length_joinTables inner)

theorem length_joinTablesAll : (es : List Expr) → (joinTablesAll es).length = joinsAll es
  | [] => rfl
  | e :: es => by
    rw [joinTablesAll, List.length_append, length_joinTables e, length_joinTablesAll es, joinsAll]

end

/-- Some tables with the aliases of joins to them, when `n` joins have begun before. -/
def numbered (n : Nat) (tables : List String) : Scopes :=
  (tables.zipIdx (n + 1)).map fun p => (p.1, joinAlias p.1 p.2)

theorem numbered_append (n : Nat) (ts us : List String) :
    numbered n (ts ++ us) = numbered n ts ++ numbered (n + ts.length) us := by
  rw [numbered, List.zipIdx_append, List.map_append, Nat.add_right_comm]
  rfl

mutual

/-- Joins are numbered in the order in which they begin. -/
theorem rowsAll_pieces (scopes : Scopes) (n : Nat) : (e : Expr) →
    Piece.rowsAll (e.pieces scopes n) = numbered n e.joinTables
  | value _ => rfl
  | column _ => rfl
  | unary _ e => rowsAll_pieces scopes n e
  | binary _ l r => by
    rw [pieces, joinTables, Piece.rowsAll_append, numbered_append, length_joinTables,
      rowsAll_pieces scopes n l, rowsAll_pieces scopes (n + joins l) r]
  | call f args => by
    have hargs := rowsAll_piecesAll scopes n args
    cases f <;> first | rfl | exact hargs
  | join source target inner => by
    have hinner := rowsAll_pieces
      ((target.table, joinAlias target.table (n + 1)) :: scopes) (n + 1) inner
    rw [pieces, joinTables, Piece.rowsAll, Piece.rowsAll, List.append_nil, Piece.rows,
      Piece.rowsAll_append, hinner]
    simp [Piece.rowsAll, Piece.rows, numbered]

theorem rowsAll_piecesAll (scopes : Scopes) (n : Nat) : (es : List Expr) →
    Piece.rowsAll (piecesAll scopes n es) = numbered n (joinTablesAll es)
  | [] => rfl
  | e :: es => by
    rw [piecesAll, joinTablesAll, Piece.rowsAll_append, numbered_append, length_joinTables,
      rowsAll_pieces scopes n e, rowsAll_piecesAll scopes (n + joins e) es]

end

/-- Joins with different numbers have different aliases. -/
theorem nodup_numbered (n : Nat) (ts : List String) : ((numbered n ts).map Prod.snd).Nodup := by
  have hnumbers : (ts.zipIdx (n + 1)).Pairwise fun p q => p.2 ≠ q.2 := by
    rw [← List.pairwise_map, List.zipIdx_map_snd]
    exact List.nodup_range'
  rw [numbered, List.map_map]
  refine List.pairwise_map.mpr (hnumbers.imp fun hne he => hne ?_)
  exact Catalog.number_of_key_joinAlias (congrArg Catalog.key he)

end Expr

/-! ### Statements -/

namespace Statement

theorem occurrences_placed (s : Statement) :
    List.Forall₂ Occurrence.Placed s.occurrences s.outline.columns := by
  rw [outline_eq]
  exact Expr.occurrencesAll_placed (.nil 0) s.exprs

theorem outline_rows (s : Statement) :
    s.outline.rows = Expr.numbered 0 (Expr.joinTablesAll s.exprs) := by
  rw [outline_eq]
  exact Expr.rowsAll_piecesAll [] 0 s.exprs

/-- **The names in a statement.**  Every column is written with the name that qualifies its table,
and no two joins have the same alias.  The text comes about by writing from left to right, and an
expression anywhere in it leaves the joins around as they were and what was written before as it
is. -/
theorem names_scoped (s : Statement) :
    List.Forall₂ Occurrence.WrittenAs s.occurrences s.outline.columns ∧
      (s.outline.rows.map Prod.snd).Nodup ∧
      (s.write (.start true)).finish = s.prepare ∧
      (s.write (.start false)).finish = ⟨s.canonical, []⟩ ∧
      ∀ (e : Expr) (w : Writer), (e.write w).scopes = w.scopes ∧
        w.text <+: (e.write w).text ∧ w.parameters <+: (e.write w).parameters := by
  have hwritten := s.occurrences_placed.imp fun _ _ ⟨_, _, _, h⟩ => h.writtenAs
  refine ⟨hwritten, ?_, s.finish_write_prepared, s.finish_write_canonical, Expr.write_extends⟩
  rw [outline_rows]
  exact Expr.nodup_numbered 0 _

/-- From a table to another one and back: the column in the middle is read from the second row of
the first table, and the reference that starts the way from the first one. -/
example : ((expr (.join ⟨"A", "b"⟩ ⟨"B", "id"⟩
    (.join ⟨"B", "a"⟩ ⟨"A", "id"⟩ (.column ⟨"A", "x"⟩)))).outline.columns.map fun w =>
      (w.qualifier, w.name)) =
    [("A#2", "x"), ("A#2", "id"), ("B#1", "a"), ("B#1", "id"), ("A", "b")] := by
  decide +kernel

end Statement

end LiveQuery
