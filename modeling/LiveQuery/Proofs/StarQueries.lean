import LiveQuery.Proofs.Affected
import LiveQuery.Proofs.Schemas

/-!
# Queries without results

A query without results gives all columns of its root tables.  It reads as much as the query that
has these columns for its results, and the engine gives the same rows for both
(`Database.answersStar`).  The change analysis looks at what is written in a query, though, and the
columns that are left to the engine are not: an update of one of them changes the rows of a query
that it does not affect (`Library.run_books_renumber`).  It is sound for the query with its results
spelled out.

## Main definitions

* `Query.spelled`: the query that names all columns of its root tables.
* `Database.AnswersStar`: what is expected of the engine.

## Main results

* `Database.answersStar`: the engine gives the rows of the query that names all columns.
* `Database.star_bag_after_of_not_affected`: what does not affect this query leaves the rows.
-/

namespace LiveQuery

/-! ### All columns -/

/-- The names of the columns of a table differ by more than case. -/
def Table.ColumnsApart (t : Table) : Prop :=
  t.columns.Pairwise fun c d => Caseless.same c.name d.name = false

instance (t : Table) : Decidable t.ColumnsApart :=
  inferInstanceAs (Decidable (List.Pairwise _ _))

/-- The declared columns of a table of the database. -/
def Database.columnsOf (db : Database) (table : String) : List Column :=
  (db.table? table).toList.flatMap fun t => t.columns.map fun c => ⟨table, c.name⟩

/-- The query that names all columns of its root tables as its results. -/
def Query.spelled (db : Database) (q : Query) : Query :=
  { q with
    results := (q.rootTables.toList.flatMap db.columnsOf).map fun c => ⟨.column c, some c.name⟩ }

/-- The engine answers a query without results as the query that names all columns: whenever it
gives rows, they are the rows of the answer to that query. -/
def Database.AnswersStar (db : Database) (q : Query) : Prop :=
  ∀ moment rows, db.run moment q = .ok rows →
    (rows : Multiset (List Value)) = (q.spelled db).answer db moment

/-! ### Reading all columns -/

theorem Table.column?_of_mem {t : Table} (hapart : t.ColumnsApart) {c : ColumnInfo}
    (hc : c ∈ t.columns) : t.column? c.name = some c := by
  have hsymm : Std.Symm fun c d : ColumnInfo => Caseless.same c.name d.name = false :=
    ⟨fun c d h => by rwa [Caseless.same, Bool.beq_comm]⟩
  refine find?_eq_some_of_unique hc (beq_self_eq_true _) fun d hd hsame => ?_
  by_contra hne
  rw [hapart.forall hd hc hne] at hsame
  cases hsame

/-- Reading a column by its name is reading its cell. -/
theorem Source.read_column {s : Source (Option NumberedRow)} (hapart : s.table.ColumnsApart)
    {c : ColumnInfo} (hc : c ∈ s.table.columns) :
    s.read c.name = (Cell.column c).operand s.content := by
  rw [read, Table.cell?, Table.column?_of_mem hapart hc]

/-- With one row for each name, reading goes to the row of the name. -/
theorem Combination.read_of_mem {row : Combination} (hnodup : (row.map (·.name)).Nodup)
    {s : Source (Option NumberedRow)} (hs : s ∈ row) (n : String) :
    row.read ⟨s.name, n⟩ = s.read n := by
  have hfind : (row.find? fun s' => s'.name == s.name) = some s :=
    find?_eq_some_of_unique hs (beq_self_eq_true _) fun s' hs' hname =>
      List.inj_on_of_nodup_map hnodup hs' hs (beq_iff_eq.mp hname)
  rw [read, hfind]

theorem Database.table?_of_mem_combinations {db : Database} {ts : List String} {row : Combination}
    (h : row ∈ db.combinations ts) {s : Source (Option NumberedRow)} (hs : s ∈ row) :
    db.table? s.name = some s.table := by
  induction ts generalizing row with
  | nil =>
    rw [List.mem_singleton.mp h] at hs
    cases hs
  | cons t ts ih =>
    obtain ⟨s', hs', hrow⟩ := List.mem_flatMap.mp h
    obtain ⟨rest, hrest, rfl⟩ := List.mem_map.mp hrow
    rcases List.mem_cons.mp hs with rfl | hs
    · rw [name_of_mem_rows hs']
      unfold rows at hs'
      split at hs'
      next table htable =>
        obtain ⟨r, -, rfl⟩ := List.mem_map.mp hs'
        exact htable
      next => cases hs'
    · exact ih hrest hs

/-- All cells of a combination of rows are what it holds in all columns. -/
theorem Database.map_read_columnsOf {db : Database} {ts : List String} {row : Combination}
    (h : row ∈ db.combinations ts) (hnodup : ts.Nodup)
    (hapart : ∀ t ∈ ts, ∀ table ∈ db.table? t, table.ColumnsApart) :
    (ts.flatMap db.columnsOf).map (fun c => (row.read c).datum) = allCells row := by
  have hnames := names_of_mem_combinations h
  rw [← hnames] at hnodup hapart
  rw [← hnames, List.flatMap_map, List.map_flatMap, allCells]
  refine List.flatMap_congr fun s hs => ?_
  have htable := table?_of_mem_combinations h hs
  have hcolumns := hapart s.name (List.mem_map_of_mem hs) s.table htable
  rw [columnsOf, htable, Option.toList_some, List.flatMap_singleton, List.map_map]
  refine List.map_congr_left fun c hc => ?_
  rw [Function.comp_apply, Combination.read_of_mem hnodup hs, Source.read_column hcolumns hc]

/-! ### Spelling out -/

theorem Database.table_of_mem_columnsOf {db : Database} {t : String} {c : Column}
    (h : c ∈ db.columnsOf t) : c.table = t := by
  obtain ⟨table, -, hc⟩ := List.mem_flatMap.mp h
  obtain ⟨column, -, rfl⟩ := List.mem_map.mp hc
  rfl

/-- The columns of a table do not depend on its rows. -/
theorem Database.SameSchema.columnsOf {db db' : Database} (h : db.SameSchema db') :
    db.columnsOf = db'.columnsOf := by
  have hbare : ∀ (t : String) (o : Option Table),
      (o.toList.flatMap fun table => table.columns.map fun c => (⟨t, c.name⟩ : Column)) =
        (o.map Table.bare).toList.flatMap fun table => table.columns.map fun c => ⟨t, c.name⟩ := by
    rintro t (_ | table) <;> rfl
  funext t
  rw [Database.columnsOf, Database.columnsOf, hbare t (db.table? t), hbare t (db'.table? t), h t]

namespace Query

variable {db db' : Database} {q : Query}

theorem spelled_congr (h : db.SameSchema db') : q.spelled db = q.spelled db' := by
  rw [spelled, spelled, h.columnsOf]

/-- Spelling out adds columns of root tables. -/
theorem exprs_spelled (hstar : q.results = []) :
    (q.spelled db).exprs =
      (q.rootTables.toList.flatMap db.columnsOf).map Expr.column ++ q.exprs := by
  simp [exprs, spelled, hstar, Function.comp_def]

theorem rootTables_spelled (hstar : q.results = []) :
    (q.spelled db).rootTables = q.rootTables := by
  refine SortedSet.ext_mem fun t => ?_
  have hold : t ∈ q.exprs.flatMap Expr.roots ↔ t ∈ q.rootTables := SortedSet.mem_ofList.symm
  rw [rootTables, SortedSet.mem_ofList, exprs_spelled hstar, List.flatMap_append, List.mem_append,
    hold]
  refine ⟨fun h => h.elim (fun hnew => ?_) id, Or.inr⟩
  obtain ⟨e, he, ht⟩ := List.mem_flatMap.mp hnew
  obtain ⟨c, hc, rfl⟩ := List.mem_map.mp he
  obtain ⟨u, hu, hc⟩ := List.mem_flatMap.mp hc
  obtain rfl := List.mem_singleton.mp ht
  exact Database.table_of_mem_columnsOf hc ▸ hu

theorem nowFree_spelled (hstar : q.results = []) (h : q.nowFree = true) :
    (q.spelled db).nowFree = true := by
  rw [nowFree, exprs_spelled hstar, List.all_append, Bool.and_eq_true]
  exact ⟨by simp [List.all_eq_true, Expr.nowFree], h⟩

theorem joinsByKey_spelled (hstar : q.results = []) (h : db.JoinsByKey q) :
    db.JoinsByKey (q.spelled db) := by
  intro e he k hk
  rw [exprs_spelled hstar] at he
  rcases List.mem_append.mp he with he | he
  · obtain ⟨column, -, rfl⟩ := List.mem_map.mp he
    cases hk
  · exact h e he k hk

end Query

/-- **The engine gives all columns** for a query without results and without aggregates, if the
tables and their columns can be told apart. -/
theorem Database.answersStar (db : Database) {q : Query} (hstar : q.results = [])
    (hscalar : q.scalar = true) (hapart : NamesApart (· ∈ q.tables))
    (hcolumns : ∀ t ∈ q.rootTables.toList, ∀ table ∈ db.table? t, table.ColumnsApart) :
    db.AnswersStar q := by
  intro moment rows hrun
  rw [Query.answer, Query.rootTables_spelled hstar]
  refine run_eq_map hscalar hapart hrun fun row hrow => ?_
  have hcells := map_read_columnsOf (List.mem_of_mem_filter hrow) q.nodup_rootTables hcolumns
  rw [resultValues, if_pos (by simp [hstar]), Query.resultsOn, Query.spelled, List.map_map]
  change (allCells row).map Datum.toValue = _
  rw [← hcells, List.map_map]
  rfl

/-! ### Soundness -/

/-- **Soundness for queries without results.**  If an action does not affect the query that names
all columns, executing the action leaves the rows of a query without results as they are. -/
theorem Database.star_bag_after_of_not_affected {db : Database} {q : Query} {a : Action}
    {moment : Binary64} (hstar : q.results = []) (haffected : (q.spelled db).isAffectedBy a = false)
    (hnow : q.nowFree = true) (hanswers : db.AnswersStar q)
    (hanswers' : (db.after moment a).AnswersStar q) (hkeys : db.JoinsByKey q)
    (hwrites : db.WritesNamed moment a (q.spelled db)) (earlier later : Binary64) :
    db.bag earlier q = (db.after moment a).bag later q := by
  have hschema := db.after_sameSchema moment a
  have hanswer : (q.spelled db).answer db earlier =
      (q.spelled db).answer (db.after moment a) later :=
    Query.answer_congr (agreesOn_after haffected hwrites) (Query.joinsByKey_spelled hstar hkeys)
      (Query.nowFree_spelled hstar hnow) earlier later
  rw [bag_eq (hanswers earlier), bag_eq (hanswers' later), Query.fault?_congr hschema,
    ← Query.spelled_congr hschema, hanswer]

/-! ### An example -/

namespace Library

/-- Two authors and a book by each of them. -/
def database : Database where
  tables := .ofList
    [("author", ⟨"Author", [⟨"id", "INTEGER", false, 1⟩, ⟨"name", "TEXT", true, 0⟩],
        .ofList [(1, .ofList [("id", .integer 1), ("name", .text [65])]),
          (2, .ofList [("id", .integer 2), ("name", .text [66])])], "", 2⟩),
      ("book", ⟨"Book", [⟨"title", "TEXT", true, 0⟩, ⟨"author", "INTEGER", true, 0⟩,
          ⟨"isbn", "TEXT", true, 0⟩],
        .ofList [(1, .ofList [("title", .text [67]), ("author", .integer 2), ("isbn", .null)]),
          (2, .ofList [("title", .text [68]), ("author", .integer 1), ("isbn", .null)])], "", 3⟩)]
  keyed := by decide

/-- All columns of the books by the first author. -/
def books : Query where
  results := []
  predicates :=
    [.binary .equal (.join ⟨"Book", "author"⟩ ⟨"Author", "id"⟩ (.column ⟨"Author", "id"⟩))
      (.value (.integer 1))]
  order := []

/-- Gives all authors the same name. -/
def rename : Action := .update "Author" (.ofList [("name", .value (.text "Z"))]) none

theorem answersStar_books {db : Database}
    (hcolumns : ∀ t ∈ books.rootTables.toList, ∀ table ∈ db.table? t, table.ColumnsApart) :
    db.AnswersStar books :=
  db.answersStar rfl (by decide) (namesApart_of_toList (by decide) (by decide)) hcolumns

theorem joinsByKey_books : database.JoinsByKey books := by decide +kernel

/-- New names of the authors change the database, but not the columns of the books. -/
theorem bag_books_rename : database.after (.ofInt 2) rename ≠ database ∧
    database.bag (.ofInt 1) books = (database.after (.ofInt 2) rename).bag (.ofInt 3) books := by
  refine ⟨by decide +kernel, ?_⟩
  exact Database.star_bag_after_of_not_affected rfl (by decide +kernel) (by decide)
    (answersStar_books (by decide +kernel)) (answersStar_books (by decide +kernel))
    joinsByKey_books
    (Database.writesNamed (Database.numbered_of_toList (by decide +kernel)) (by decide +kernel) _)
    _ _

/-- New numbers of the books do not affect the query as it is written, but change its rows. -/
theorem run_books_renumber : books.isAffectedBy renumber = false ∧ "Book" ∈ books.rootTables ∧
    database.run (.ofInt 1) books = .ok [[.text "D", .integer 1, .null]] ∧
    (database.after (.ofInt 2) renumber).run (.ofInt 1) books =
      .ok [[.text "D", .integer 1, .text "0"]] := by
  refine ⟨by decide +kernel, SortedSet.contains_eq_true_iff.mp (by decide +kernel), ?_, ?_⟩
  · decide +kernel
  · decide +kernel

end Library

end LiveQuery
