import LiveQuery.Proofs.Capture

/-!
# What is read and what is written

Two walks over an expression have to meet the same columns.  One collects what the expression reads,
and by this it is decided which changes matter to a query.  The other renders it, and what it
writes is what the engine reads in the end.  A column that only the renderer met would be read
without anyone noticing that it changes.

The renderer leaves out two things: the operand of a comparison with null that is the null literal
itself, which mentions no column, and the arguments of the current moment, which may.  So the
columns that are collected are those in the text, and the ones in the arguments of the current
moment.

In a text a column of a join stands behind the alias of the join, and its table is found through
this alias.  A column without an alias stands behind its table.  A text does not say which of the
two a qualifier is, so looking it up among the aliases around the column finds the wrong table if
some table goes by the name of an alias there.  Otherwise the text alone gives the columns.

## Main definitions

* `Expr.bareNow`: no call of the current moment has arguments.
* `Written.column`: the column that a text names, its qualifier looked up among the aliases.
* `Statement.Covered`: the columns and tables of a text are among those that are collected.

## Main results

* `Expr.mem_mentions_of_mem_occurrences`, `Expr.exists_occurrence`: the two walks.
* `Scopes.Writes.column_eq`: what a text names is what is meant, unless a column is captured.
* `Statement.columns_cover_text`: what is collected covers the text of expressions and queries.
-/

namespace LiveQuery

/-! ### Two walks over an expression -/

namespace Expr

mutual

/-- Whether no call of the current moment in an expression has arguments. -/
def bareNow : Expr → Bool
  | value _ => true
  | column _ => true
  | unary _ e => bareNow e
  | binary _ l r => bareNow l && bareNow r
  | call .now args => args.isEmpty
  | call _ args => bareNowAll args
  | join _ _ inner => bareNow inner

/-- Whether no call of the current moment in some expressions has arguments. -/
def bareNowAll : List Expr → Bool
  | [] => true
  | e :: es => bareNow e && bareNowAll es

end

theorem bareNowAll_eq_true_iff {es : List Expr} :
    bareNowAll es = true ↔ ∀ e ∈ es, e.bareNow = true := by
  induction es with
  | nil => simp [bareNowAll]
  | cons e es ih => simp [bareNowAll, ih]

theorem bareNow_call {f : Builtin} (hf : f ≠ .now) {args : List Expr}
    (h : bareNow (call f args) = true) : ∀ a ∈ args, a.bareNow = true := by
  cases f <;> first | exact absurd rfl hf | exact bareNowAll_eq_true_iff.mp h

theorem mem_joinTablesAll {es : List Expr} {t : String} :
    t ∈ joinTablesAll es ↔ ∃ e ∈ es, t ∈ e.joinTables := by
  induction es with
  | nil => simp [joinTablesAll]
  | cons e es ih => simp [joinTablesAll, ih]

/-- **What is rendered is mentioned**, under whatever joins. -/
theorem mem_mentions_of_mem_occurrences {e : Expr} {around : List String} {o : Occurrence}
    (h : o ∈ e.occurrences around) : o.column ∈ e.mentions := by
  induction e using Expr.induct generalizing around with
  | value v => cases h
  | column c =>
    obtain rfl := List.mem_singleton.mp h
    exact List.mem_singleton_self c
  | unary op e ih => exact ih h
  | binary op l r ihl ihr =>
    rcases List.mem_append.mp h with h | h
    · exact List.mem_append_left _ (ihl h)
    · exact List.mem_append_right _ (ihr h)
  | call f args ih =>
    by_cases hf : f = .now
    · subst hf
      cases h
    · rw [occurrences_call hf] at h
      obtain ⟨a, ha, ho⟩ := mem_occurrencesAll.mp h
      exact mem_mentionsAll.mpr ⟨a, ha, ih a ha ho⟩
  | join source target inner ih =>
    rcases List.mem_append.mp h with h | h
    · exact List.mem_cons_of_mem _ (List.mem_cons_of_mem _ (ih h))
    · rcases List.mem_cons.mp h with rfl | h
      · exact List.mem_cons_of_mem _ List.mem_cons_self
      · obtain rfl := List.mem_singleton.mp h
        exact List.mem_cons_self

/-- **What is mentioned is rendered**, unless it is an argument of the current moment. -/
theorem exists_occurrence {e : Expr} (hnow : e.bareNow = true) {c : Column} (h : c ∈ e.mentions)
    (around : List String) : ∃ o ∈ e.occurrences around, o.column = c := by
  induction e using Expr.induct generalizing around with
  | value v => cases h
  | column d => exact ⟨_, List.mem_singleton_self _, (List.mem_singleton.mp h).symm⟩
  | unary op e ih => exact ih hnow h around
  | binary op l r ihl ihr =>
    obtain ⟨hl, hr⟩ := Bool.and_eq_true_iff.mp hnow
    rcases List.mem_append.mp h with h | h
    · obtain ⟨o, ho, hc⟩ := ihl hl h around
      exact ⟨o, List.mem_append_left _ ho, hc⟩
    · obtain ⟨o, ho, hc⟩ := ihr hr h around
      exact ⟨o, List.mem_append_right _ ho, hc⟩
  | call f args ih =>
    by_cases hf : f = .now
    · subst hf
      obtain rfl := List.isEmpty_iff.mp hnow
      cases h
    · obtain ⟨a, ha, hmention⟩ := mem_mentionsAll.mp h
      obtain ⟨o, ho, hc⟩ := ih a ha (bareNow_call hf hnow a ha) hmention around
      rw [occurrences_call hf]
      exact ⟨o, mem_occurrencesAll.mpr ⟨a, ha, ho⟩, hc⟩
  | join source target inner ih =>
    rcases List.mem_cons.mp h with rfl | h
    · exact ⟨⟨c, target.table :: around, true⟩, by simp [occurrences], rfl⟩
    · rcases List.mem_cons.mp h with rfl | h
      · exact ⟨⟨c, c.table :: around, false⟩, by simp [occurrences], rfl⟩
      · obtain ⟨o, ho, hc⟩ := ih hnow h (target.table :: around)
        exact ⟨o, List.mem_append_left _ ho, hc⟩

/-- The table of a join is that of its target. -/
theorem exists_mention_of_mem_joinTables {e : Expr} {t : String} (h : t ∈ e.joinTables) :
    ∃ c ∈ e.mentions, c.table = t := by
  induction e using Expr.induct with
  | value v => cases h
  | column c => cases h
  | unary op e ih => exact ih h
  | binary op l r ihl ihr =>
    rcases List.mem_append.mp h with h | h
    · obtain ⟨c, hc, ht⟩ := ihl h
      exact ⟨c, List.mem_append_left _ hc, ht⟩
    · obtain ⟨c, hc, ht⟩ := ihr h
      exact ⟨c, List.mem_append_right _ hc, ht⟩
  | call f args ih =>
    have hargs : t ∈ joinTablesAll args := by
      cases f <;> first | exact h | cases h
    obtain ⟨a, ha, hmem⟩ := mem_joinTablesAll.mp hargs
    obtain ⟨c, hc, ht⟩ := ih a ha hmem
    exact ⟨c, mem_mentionsAll.mpr ⟨a, ha, hc⟩, ht⟩
  | join source target inner ih =>
    rcases List.mem_cons.mp h with rfl | h
    · exact ⟨target, List.mem_cons_of_mem _ List.mem_cons_self, rfl⟩
    · obtain ⟨c, hc, ht⟩ := ih h
      exact ⟨c, List.mem_cons_of_mem _ (List.mem_cons_of_mem _ hc), ht⟩

theorem fst_mem_of_mem_numbered {n : Nat} {ts : List String} {row : String × String}
    (h : row ∈ numbered n ts) : row.1 ∈ ts := by
  obtain ⟨p, hp, rfl⟩ := List.mem_map.mp h
  exact List.fst_mem_of_mem_zipIdx hp

end Expr

/-! ### Columns named by a text -/

/-- The column that a text names: the qualifier is looked up among the aliases of the subqueries
around, from inside, and is the table itself if it is none of them. -/
def Written.column (w : Written) : Column where
  table := ((w.clauses.flatten.find? fun s => s.2 == w.qualifier).map Prod.fst).getD w.qualifier
  name := w.name

/-- **A text names the column that is meant unless it is captured.**  If the qualifier is an alias,
no other join around has this alias.  If it is a table, no join around goes by its name. -/
theorem Scopes.Writes.column_eq {n : Nat} {scopes : Scopes} {o : Occurrence} {w : Written}
    (h : scopes.Writes o w) (hnumbered : scopes.Numbered n) (hfree : ¬ o.Captured w) :
    w.column = o.column := by
  have hname : w.column.name = o.column.name := h.name
  suffices htable : w.column.table = o.column.table by
    calc w.column = ⟨w.column.table, w.column.name⟩ := rfl
      _ = ⟨o.column.table, o.column.name⟩ := by rw [htable, hname]
  rw [Written.column, h.flatten_clauses, h.qualifier]
  rcases Scopes.qualifies_qualifier (o.inScope scopes) o.column.table with
    ⟨inside, outside, hsplit, -⟩ | ⟨htable, hother⟩
  · generalize Scopes.qualifier (o.inScope scopes) o.column.table = a at hsplit ⊢
    obtain ⟨before, hbefore⟩ := o.inScope_suffix scopes
    have hscopes : scopes = (before ++ inside) ++ (o.column.table, a) :: outside := by
      rw [← hbefore, hsplit, List.append_assoc]
    have hapart := (List.pairwise_append.mp (hscopes ▸ hnumbered.pairwise)).2.2
    have hne : ∀ s ∈ before ++ inside, s.2 ≠ a := fun s hs ha =>
      hapart s hs _ List.mem_cons_self (congrArg Catalog.key ha)
    have hfind : scopes.find? (fun s => s.2 == a) = some (o.column.table, a) := by
      refine List.find?_eq_some_iff_append.mpr
        ⟨beq_self_eq_true a, before ++ inside, outside, hscopes, fun s hs => ?_⟩
      simpa using hne s hs
    rw [hfind]
    rfl
  · have hfind : scopes.find? (fun s => s.2 == o.column.table) = none := by
      refine List.find?_eq_none.mpr fun s hs hst => hfree ⟨?_, s, ?_, ?_⟩
      · rw [h.around, o.inScope_map]
        intro hmem
        obtain ⟨s', hs', ht⟩ := List.mem_map.mp hmem
        exact hother s' hs' ht
      · rw [h.flatten_clauses]
        exact hs
      · rw [beq_iff_eq.mp hst]
    rw [htable, hfind]
    rfl

/-! ### The text of a statement -/

namespace Statement

/-- Some columns and tables cover what a statement is written with. -/
structure Covered (s : Statement) (columns : SortedSet Column) (tables : SortedSet String) :
    Prop where
  /-- Every column of the text stands for a column of its own name that is among them.  The table
  is that of the join which has the qualifier for an alias, or else it is the qualifier. -/
  columns_written : List.Forall₂ (fun o w => o.WrittenAs w ∧ o.column ∈ columns) s.occurrences
    s.outline.columns
  /-- The text names these columns itself, unless one of them is captured. -/
  columns_named : (∀ p ∈ s.written, ¬ p.1.Captured p.2) →
    s.outline.columns.map Written.column = s.occurrences.map Occurrence.column
  /-- If no call of the current moment has arguments, there are no others among them. -/
  columns_exact : (∀ e ∈ s.exprs, e.bareNow = true) →
    ∀ c ∈ columns, ∃ o ∈ s.occurrences, o.column = c
  /-- The tables that subqueries look into are among them. -/
  rows_tables : ∀ row ∈ s.outline.rows, row.1 ∈ tables
  /-- The tables are those of the columns. -/
  tables_eq : ∀ t, t ∈ tables ↔ ∃ c ∈ columns, c.table = t

/-- The columns that the expressions of a statement mention cover its text. -/
theorem covered_of_mentions {s : Statement} {columns : SortedSet Column}
    {tables : SortedSet String} (hcolumns : ∀ c, c ∈ columns ↔ ∃ e ∈ s.exprs, c ∈ e.mentions)
    (htables : ∀ t, t ∈ tables ↔ ∃ c ∈ columns, c.table = t) : s.Covered columns tables where
  columns_written := by
    obtain ⟨hlength, hplaced⟩ := List.forall₂_iff_zip.mp s.occurrences_placed
    refine List.forall₂_iff_zip.mpr ⟨hlength, fun {o w} how => ?_⟩
    obtain ⟨n, scopes, -, hwrites⟩ := hplaced how
    obtain ⟨e, he, ho⟩ := Expr.mem_occurrencesAll.mp (List.of_mem_zip how).1
    exact ⟨hwrites.writtenAs,
      (hcolumns _).mpr ⟨e, he, Expr.mem_mentions_of_mem_occurrences ho⟩⟩
  columns_named hfree := by
    refine (map_eq_map_iff_of_rel (P := fun p => p.2.column = p.1.column) s.occurrences_placed
      fun _ _ _ _ => Iff.rfl).mpr fun p hp => ?_
    obtain ⟨n, scopes, hnumbered, hwrites⟩ := (List.forall₂_iff_zip.mp s.occurrences_placed).2 hp
    exact hwrites.column_eq hnumbered (hfree p hp)
  columns_exact hnow c hc := by
    obtain ⟨e, he, hmention⟩ := (hcolumns c).mp hc
    obtain ⟨o, ho, hoc⟩ := Expr.exists_occurrence (hnow e he) hmention []
    exact ⟨o, Expr.mem_occurrencesAll.mpr ⟨e, he, ho⟩, hoc⟩
  rows_tables row hrow := by
    rw [outline_rows] at hrow
    obtain ⟨e, he, htable⟩ := Expr.mem_joinTablesAll.mp (Expr.fst_mem_of_mem_numbered hrow)
    obtain ⟨c, hc, hct⟩ := Expr.exists_mention_of_mem_joinTables htable
    exact (htables _).mpr ⟨c, (hcolumns c).mpr ⟨e, he, hc⟩, hct⟩
  tables_eq := htables

/-- **What is read covers what is written.**  The columns of an expression or a query are those in
its text, behind the names that qualify their tables, and perhaps further ones in arguments of the
current moment.  Its tables are those of its columns, and the tables in the FROM clauses of the text
are among them, both of subqueries and of the query itself. -/
theorem columns_cover_text :
    (∀ e : Expr, (expr e).Covered e.columns e.tables) ∧
      ∀ q : Query, (query q).Covered q.columns q.tables ∧
        (∀ t ∈ q.rootTables, t ∈ q.tables) ∧
        ∀ source ∈ (query q).outline.sources, source.1 ∈ q.tables := by
  refine ⟨fun e => covered_of_mentions (fun c => ?_) (fun t => Expr.mem_tables), fun q => ?_⟩
  · simp [exprs]
  · have hroots : ∀ t ∈ q.rootTables, t ∈ q.tables := by
      intro t ht
      obtain ⟨e, he, hroot⟩ := List.mem_flatMap.mp (SortedSet.mem_ofList.mp ht)
      obtain ⟨c, hc, hct⟩ := Expr.exists_mem_mentions_of_mem_roots hroot
      exact Query.mem_tables.mpr
        ⟨c, Query.mem_columns.mpr ⟨e, he, Expr.mem_columns.mpr hc⟩, hct⟩
    refine ⟨covered_of_mentions (fun c => ?_) (fun t => Query.mem_tables), hroots,
      fun source hsource => ?_⟩
    · simp [Query.mem_columns, exprs]
    · rw [outline_eq] at hsource
      obtain ⟨t, ht, rfl⟩ := List.mem_map.mp hsource
      exact hroots t ht

-- Names alone do not tell a table that is called like an alias.  The column `x` of such a table is
-- captured by the join that has the alias, so the text seems to name a column of the joined table.
example : (expr (.join ⟨"A#1", "x"⟩ ⟨"A", "id"⟩ (.column ⟨"A", "name"⟩))).outline.columns.map
      Written.column = [⟨"A", "name"⟩, ⟨"A", "id"⟩, ⟨"A", "x"⟩] ∧
    (expr (.join ⟨"A#1", "x"⟩ ⟨"A", "id"⟩ (.column ⟨"A", "name"⟩))).occurrences.map
      Occurrence.column = [⟨"A", "name"⟩, ⟨"A", "id"⟩, ⟨"A#1", "x"⟩] := by
  decide +kernel

end Statement

end LiveQuery
