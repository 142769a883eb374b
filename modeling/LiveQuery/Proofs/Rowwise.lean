import LiveQuery.Engine.Select
import Mathlib.Data.Multiset.Bind
import Mathlib.Data.Multiset.Filter

/-!
# Row by row

The meaning of expressions and queries without their rendered form: an expression is evaluated on
one row of every table around it, a column being read by the name of its table, and a query keeps
and evaluates the rows of a product of tables.  Aliases, clauses and aggregates do not occur here.
The engine follows the rendered names instead; `Database.AnswersRowwise` says of a database and a
query that both come to the same.

Results are compared as collections of rows in which the order does not count.

## The frame lemma

`Expr.onRow_congr` is what a change analysis rests on: an expression has the same value in two
databases that agree on the columns it mentions.  Agreement relates the rows of a table one to one
and not place by place, since a write may change the order in which rows are found.  A join takes
the first row that fits, so this is only sound if no two rows fit: its target has to be a key.

A key is asked for pairs of columns, and only for what the rows of the referring table hold.  Values
that differ need not differ for every operand: the texts `1` and `01` both equal the integer 1.  So
rows are taken from the tables whose names they carry, and this is said of them where it is needed.

## Main definitions

* `Source.read`, `Combination.read`: reading a column by the name of its table.
* `Expr.onRow`, `Query.answer`: evaluation row by row.
* `Database.AnswersRowwise`, `Database.JoinsByKey`: what is expected of the engine and of keys.
* `Combination.Within`: rows from the tables of a database.
* `Database.AgreesOn`: databases that agree on some columns.

## Main results

* `Expr.onRow_congr`, `Query.answer_congr`: values depend on the mentioned columns only.
-/

namespace LiveQuery

/-! ### Related collections -/

section Related

variable {α β γ : Type} {R : α → β → Prop}

/-- Tests that agree on related members keep related members. -/
theorem rel_filter {p : α → Bool} {q : β → Bool} {s : Multiset α} {t : Multiset β}
    (h : Multiset.Rel R s t) (hpq : ∀ a b, R a b → p a = q b) :
    Multiset.Rel R (s.filter fun a => p a = true) (t.filter fun b => q b = true) := by
  induction h with
  | zero => exact Multiset.Rel.zero
  | @cons a b s t hab _ ih =>
    by_cases hp : p a = true
    · have hq : q b = true := (hpq a b hab).symm.trans hp
      rw [Multiset.filter_cons_of_pos s hp, Multiset.filter_cons_of_pos t hq]
      exact Multiset.Rel.cons hab ih
    · have hq : ¬ q b = true := fun hq => hp ((hpq a b hab).trans hq)
      rwa [Multiset.filter_cons_of_neg s hp, Multiset.filter_cons_of_neg t hq]

/-- Functions that agree on related members have the same images. -/
theorem map_eq_of_rel {f : α → γ} {g : β → γ} {s : Multiset α} {t : Multiset β}
    (h : Multiset.Rel R s t) (hfg : ∀ a b, R a b → f a = g b) : s.map f = t.map g :=
  Multiset.rel_eq.mp (Multiset.rel_map.mpr (h.mono fun a _ b _ hab => hfg a b hab))

/-- If a test passes at most one member, the first one that passes does not depend on the order. -/
theorem find?_rel {p : α → Bool} {q : β → Bool} {l : List α} {l' : List β}
    (h : Multiset.Rel R (l : Multiset α) (l' : Multiset β)) (hpq : ∀ a b, R a b → p a = q b)
    (hone : (l.filter p).length ≤ 1) :
    (l.find? p = none ∧ l'.find? q = none) ∨
      ∃ a b, l.find? p = some a ∧ l'.find? q = some b ∧ R a b := by
  have hrel : Multiset.Rel R (l.filter p : Multiset α) (l'.filter q : Multiset β) := by
    simpa using rel_filter h hpq
  have hlength : (l.filter p).length = (l'.filter q).length := by
    simpa using Multiset.card_eq_card_of_rel hrel
  rw [← List.head?_filter, ← List.head?_filter]
  match hl : l.filter p, hl' : l'.filter q with
  | [], [] => exact Or.inl ⟨rfl, rfl⟩
  | [a], [b] =>
    have hmem : a ∈ (l.filter p : Multiset α) := by rw [hl]; exact Multiset.mem_singleton_self a
    obtain ⟨b', hb', hab⟩ := Multiset.exists_mem_of_rel_of_mem hrel hmem
    rw [hl'] at hb'
    obtain rfl : b' = b := Multiset.mem_singleton.mp hb'
    exact Or.inr ⟨a, b', rfl, rfl, hab⟩
  | [], _ :: _ => simp [hl, hl'] at hlength
  | [_], [] => simp [hl, hl'] at hlength
  | [_], _ :: _ :: _ => simp [hl, hl'] at hlength
  | _ :: _ :: _, _ => simp [hl] at hone

end Related

/-! ### Reading columns -/

/-- What a column name means in a table: a declared column, or else the row number. -/
def Table.cell? (t : Table) (name : String) : Option Cell :=
  match t.column? name with
  | some c => some (.column c)
  | none => if isRowNumberName name then some .rowNumber else none

/-- What the current row of a table holds in a column. -/
def Source.read (s : Source (Option NumberedRow)) (name : String) : Operand :=
  match s.table.cell? name with
  | some cell => cell.operand s.content
  | none => .computed .null

/-- What a row of several tables holds in a column: the first table of the name counts. -/
def Combination.read (row : Combination) (c : Column) : Operand :=
  match row.find? (·.name == c.table) with
  | some s => s.read c.name
  | none => .computed .null

/-- Whether two operands are known to be equal. -/
def Operand.equals (a b : Operand) : Bool := (BinaryOp.apply .equal a b).truth == some true

/-- Nothing is known to equal null. -/
theorem Operand.equals_null (a : Operand) : a.equals (.computed .null) = false := by
  have hnull : BinaryOp.apply .equal a (.computed .null) = .null := by
    simp [BinaryOp.apply, Operand.comparison, Operand.computed, Datum.isNull]
  rw [equals, hnull]
  rfl

/-- A datum made of a truth value, which may be unknown, has this truth value. -/
theorem Datum.truth_ofTruth (b : Option Bool) : (Datum.ofTruth b).truth = b := by
  cases b with
  | none => rfl
  | some b => cases b <;> decide +kernel

/-- Only the current moment depends on it. -/
theorem Builtin.apply_moment {f : Builtin} (hf : f ≠ .now) (moment moment' : Binary64)
    (args : List Datum) : f.apply moment args = f.apply moment' args := by
  cases f <;> first | exact absurd rfl hf | rfl

theorem Database.name_of_mem_rows {db : Database} {name table : String}
    {s : Source (Option NumberedRow)} (h : s ∈ db.rows name table) : s.name = name := by
  unfold rows at h
  split at h
  · obtain ⟨r, -, rfl⟩ := List.mem_map.mp h
    rfl
  · cases h

/-! ### Evaluation -/

namespace Expr

mutual

/-- The value of an expression on a row of several tables.  A join adds the row that its source
refers to in front; if there is none, it is null. -/
def onRow (db : Database) (moment : Binary64) (row : Combination) : Expr → Operand
  | value v => .computed (.ofValue v)
  | column c => row.read c
  | unary op e => .computed (op.apply (onRow db moment row e).datum)
  | binary op l r =>
    match nullTest? op l r with
    | some (test, true) => .computed (test.apply (onRow db moment row l).datum)
    | some (test, false) => .computed (test.apply (onRow db moment row r).datum)
    | none => .computed (op.apply (onRow db moment row l) (onRow db moment row r))
  | call .now _ => .computed (.real moment)
  | call f args => .computed (f.apply moment ((onRowAll db moment row args).map (·.datum)))
  | join source target inner =>
    match (db.rows target.table target.table).find? fun candidate =>
        (candidate.read target.name).equals (row.read source) with
    | some candidate => onRow db moment (candidate :: row) inner
    | none => .computed .null

/-- The values of some expressions on a row of several tables. -/
def onRowAll (db : Database) (moment : Binary64) (row : Combination) : List Expr → List Operand
  | [] => []
  | e :: es => onRow db moment row e :: onRowAll db moment row es

end

mutual

/-- Whether an expression does not ask for the current moment. -/
def nowFree : Expr → Bool
  | value _ => true
  | column _ => true
  | unary _ e => nowFree e
  | binary _ l r => nowFree l && nowFree r
  | call .now _ => false
  | call _ args => nowFreeAll args
  | join _ _ inner => nowFree inner

/-- Whether none of some expressions asks for the current moment. -/
def nowFreeAll : List Expr → Bool
  | [] => true
  | e :: es => nowFree e && nowFreeAll es

end

theorem onRowAll_eq_map (db : Database) (moment : Binary64) (row : Combination) (es : List Expr) :
    onRowAll db moment row es = es.map (onRow db moment row) := by
  induction es with
  | nil => rfl
  | cons e es ih => rw [onRowAll, ih, List.map_cons]

/-- The value of a call other than for the current moment. -/
theorem onRow_call {f : Builtin} (hf : f ≠ .now) (db : Database) (moment : Binary64)
    (row : Combination) (args : List Expr) :
    onRow db moment row (call f args) =
      .computed (f.apply moment ((args.map (onRow db moment row)).map (·.datum))) := by
  rw [← onRowAll_eq_map]
  cases f <;> first | exact absurd rfl hf | rfl

theorem nowFreeAll_eq_true_iff {es : List Expr} :
    nowFreeAll es = true ↔ ∀ e ∈ es, e.nowFree = true := by
  induction es with
  | nil => simp [nowFreeAll]
  | cons e es ih => simp [nowFreeAll, ih]

theorem nowFree_call {f : Builtin} {args : List Expr} (h : nowFree (call f args) = true) :
    f ≠ .now ∧ ∀ a ∈ args, a.nowFree = true := by
  cases f with
  | now => cases h
  | max => exact ⟨nofun, nowFreeAll_eq_true_iff.mp h⟩
  | min => exact ⟨nofun, nowFreeAll_eq_true_iff.mp h⟩
  | coalesce => exact ⟨nofun, nowFreeAll_eq_true_iff.mp h⟩
  | length => exact ⟨nofun, nowFreeAll_eq_true_iff.mp h⟩

/-- What is evaluated on the current row is among what is mentioned. -/
theorem exists_mem_mentions_of_mem_roots {e : Expr} {t : String} (h : t ∈ e.roots) :
    ∃ c ∈ e.mentions, c.table = t := by
  induction e using induct with
  | value v => exact absurd h List.not_mem_nil
  | column c => exact ⟨c, List.mem_cons_self, (List.mem_singleton.mp h).symm⟩
  | unary op e ih => exact ih h
  | binary op l r ihl ihr =>
    rcases List.mem_append.mp h with h | h
    · obtain ⟨c, hc, rfl⟩ := ihl h
      exact ⟨c, List.mem_append_left _ hc, rfl⟩
    · obtain ⟨c, hc, rfl⟩ := ihr h
      exact ⟨c, List.mem_append_right _ hc, rfl⟩
  | call f args ih =>
    obtain ⟨a, ha, h⟩ := mem_rootsAll.mp h
    obtain ⟨c, hc, rfl⟩ := ih a ha h
    exact ⟨c, mem_mentionsAll.mpr ⟨a, ha, hc⟩, rfl⟩
  | join source target inner ih =>
    exact ⟨source, List.mem_cons_self, (List.mem_singleton.mp h).symm⟩

end Expr

namespace Query

/-- Whether a query does not ask for the current moment. -/
def nowFree (q : Query) : Bool := q.exprs.all Expr.nowFree

/-- Whether all conditions of a query hold on a row of its root tables. -/
def holdsOn (db : Database) (moment : Binary64) (q : Query) (row : Combination) : Bool :=
  q.predicates.all fun p => (p.onRow db moment row).datum.truth == some true

/-- The results of a query on a row of its root tables. -/
def resultsOn (db : Database) (moment : Binary64) (q : Query) (row : Combination) : List Value :=
  q.results.map fun r => (r.expr.onRow db moment row).datum.toValue

/-- The rows that a query gives, in no particular order. -/
def answer (db : Database) (moment : Binary64) (q : Query) : Multiset (List Value) :=
  ((db.combinations q.rootTables.toList : Multiset Combination).filter
    fun row => q.holdsOn db moment row = true).map (q.resultsOn db moment)

end Query

namespace Database

/-- The engine answers a query row by row: whenever it gives rows, they are the rows of the
answer. -/
def AnswersRowwise (db : Database) (q : Query) : Prop :=
  ∀ moment rows, db.run moment q = .ok rows →
    (rows : Multiset (List Value)) = q.answer db moment

/-- A column is a key for another one that refers to it: what a row of the other table holds there
equals what at most one row holds in the column. -/
def IsKey (db : Database) (source target : Column) : Prop :=
  ∀ s ∈ db.rows source.table source.table,
    ((db.rows target.table target.table).filter fun candidate =>
      (candidate.read target.name).equals (s.read source.name)).length ≤ 1

instance (db : Database) (source target : Column) : Decidable (db.IsKey source target) :=
  inferInstanceAs (Decidable (∀ s ∈ db.rows source.table source.table, _ ≤ 1))

/-- All joins of a query find their rows by keys. -/
def JoinsByKey (db : Database) (q : Query) : Prop :=
  ∀ e ∈ q.exprs, ∀ k ∈ e.joinKeys, db.IsKey k.1 k.2

instance (db : Database) (q : Query) : Decidable (db.JoinsByKey q) :=
  inferInstanceAs (Decidable (∀ e ∈ q.exprs, ∀ k ∈ e.joinKeys, _))

/-- Nothing is asked of keys for a query without joins. -/
theorem joinsByKey_of_joinKeys_eq_nil (db : Database) {q : Query}
    (h : ∀ e ∈ q.exprs, e.joinKeys = []) : db.JoinsByKey q := by
  intro e he k hk
  rw [h e he] at hk
  cases hk

end Database

/-! ### Rows of the tables -/

/-- The rows of a combination are rows of the tables whose names they carry. -/
def Combination.Within (db : Database) (row : Combination) : Prop :=
  ∀ s ∈ row, s ∈ db.rows s.name s.name

theorem Combination.Within.cons {db : Database} {row : Combination} (h : row.Within db)
    {t : String} {s : Source (Option NumberedRow)} (hs : s ∈ db.rows t t) :
    Combination.Within db (s :: row) := by
  refine List.forall_mem_cons.mpr ⟨?_, h⟩
  rwa [Database.name_of_mem_rows hs]

/-- The combinations of rows of some tables are made of their rows. -/
theorem Database.within_of_mem_combinations {db : Database} {ts : List String} {row : Combination}
    (h : row ∈ db.combinations ts) : row.Within db := by
  induction ts generalizing row with
  | nil =>
    obtain rfl := List.mem_singleton.mp h
    exact nofun
  | cons t ts ih =>
    obtain ⟨s, hs, hrow⟩ := List.mem_flatMap.mp h
    obtain ⟨rest, hrest, rfl⟩ := List.mem_map.mp hrow
    exact (ih hrest).cons hs

/-- What a combination of rows holds in a column is in at most one row under a key for this column.
If the table of the column is not among them, they hold null there, which equals nothing. -/
theorem Database.IsKey.length_filter_le_one {db : Database} {source target : Column}
    (h : db.IsKey source target) {row : Combination} (hrow : row.Within db) :
    ((db.rows target.table target.table).filter fun candidate =>
      (candidate.read target.name).equals (row.read source)).length ≤ 1 := by
  unfold Combination.read
  split
  next s hs =>
    have hname : s.name = source.table := by simpa using List.find?_some hs
    have hmem := hrow s (List.mem_of_find?_eq_some hs)
    rw [hname] at hmem
    exact h s hmem
  next => simp [Operand.equals_null]

/-! ### Agreement -/

/-- Two rows of a table are alike if they hold the same in the columns of interest. -/
def Source.Alike (reads : Column → Prop) (s s' : Source (Option NumberedRow)) : Prop :=
  s.name = s'.name ∧ ∀ n, reads ⟨s.name, n⟩ → s.read n = s'.read n

/-- Two databases agree on some columns if the rows of every table with such a column are alike,
one to one. -/
def Database.AgreesOn (db : Database) (reads : Column → Prop) (db' : Database) : Prop :=
  ∀ t n, reads ⟨t, n⟩ →
    Multiset.Rel (Source.Alike reads) (db.rows t t : Multiset _) (db'.rows t t : Multiset _)

theorem Database.AgreesOn.refl (db : Database) (reads : Column → Prop) : db.AgreesOn reads db :=
  fun _ _ _ => Multiset.rel_refl_of_refl_on fun _ _ => ⟨rfl, fun _ _ => rfl⟩

/-- What at most one row holds is found in alike rows of databases that agree on it. -/
theorem Database.AgreesOn.find {db db' : Database} {reads : Column → Prop}
    (h : db.AgreesOn reads db') {c : Column} (hc : reads c) {x : Operand}
    (hone : ((db.rows c.table c.table).filter fun s => (s.read c.name).equals x).length ≤ 1) :
    ((db.rows c.table c.table).find? (fun s => (s.read c.name).equals x) = none ∧
        (db'.rows c.table c.table).find? (fun s => (s.read c.name).equals x) = none) ∨
      ∃ s s', (db.rows c.table c.table).find? (fun s => (s.read c.name).equals x) = some s ∧
        (db'.rows c.table c.table).find? (fun s => (s.read c.name).equals x) = some s' ∧
        Source.Alike reads s s' := by
  have hrows : Multiset.Rel (fun s s' => Source.Alike reads s s' ∧ s.name = c.table)
      (db.rows c.table c.table : Multiset _) (db'.rows c.table c.table : Multiset _) :=
    (h c.table c.name hc).mono fun s hs _ _ hss' => ⟨hss', name_of_mem_rows (by simpa using hs)⟩
  have htest : ∀ s s', Source.Alike reads s s' ∧ s.name = c.table →
      (s.read c.name).equals x = (s'.read c.name).equals x := by
    rintro s s' ⟨⟨_, hread⟩, hname⟩
    rw [hread c.name (by rw [hname]; exact hc)]
  rcases find?_rel hrows htest hone with hnone | ⟨s, s', hs, hs', hss', -⟩
  · exact Or.inl hnone
  · exact Or.inr ⟨s, s', hs, hs', hss'⟩

theorem Combination.read_congr {reads : Column → Prop} {row row' : Combination}
    (h : List.Forall₂ (Source.Alike reads) row row') {c : Column} (hc : reads c) :
    Combination.read row c = Combination.read row' c := by
  induction h with
  | nil => rfl
  | @cons s s' row row' hs _ ih =>
    obtain ⟨hname, hread⟩ := hs
    by_cases ht : s.name = c.table
    · have ht' : s'.name = c.table := hname ▸ ht
      have hsc : s.read c.name = s'.read c.name := hread _ (by rw [ht]; exact hc)
      simpa [Combination.read, ht, ht'] using hsc
    · have ht' : ¬ s'.name = c.table := hname ▸ ht
      simpa [Combination.read, ht, ht'] using ih

/-- **The frame lemma.**  An expression that does not ask for the moment has the same value in
databases and on rows that agree on what it mentions.  The induction is on the expression; the rows
are general, as a join adds one to them, which is from a table again. -/
theorem Expr.onRow_congr {reads : Column → Prop} {db db' : Database} (moment moment' : Binary64)
    (hdb : db.AgreesOn reads db') {e : Expr} (hreads : ∀ c ∈ e.mentions, reads c)
    (hkeys : ∀ k ∈ e.joinKeys, db.IsKey k.1 k.2) (hnow : e.nowFree = true)
    {row row' : Combination} (hwithin : row.Within db)
    (hrow : List.Forall₂ (Source.Alike reads) row row') :
    e.onRow db moment row = e.onRow db' moment' row' := by
  induction e using Expr.induct generalizing row row' with
  | value v => rfl
  | column c => exact Combination.read_congr hrow (hreads c List.mem_cons_self)
  | unary op e ih => rw [onRow, onRow, ih hreads hkeys hnow hwithin hrow]
  | binary op l r ihl ihr =>
    obtain ⟨hnowl, hnowr⟩ := Bool.and_eq_true_iff.mp hnow
    have hl := ihl (fun c hc => hreads c (List.mem_append_left _ hc))
      (fun k hk => hkeys k (List.mem_append_left _ hk)) hnowl hwithin hrow
    have hr := ihr (fun c hc => hreads c (List.mem_append_right _ hc))
      (fun k hk => hkeys k (List.mem_append_right _ hk)) hnowr hwithin hrow
    rw [onRow, onRow, hl, hr]
  | call f args ih =>
    obtain ⟨hf, hnow⟩ := nowFree_call hnow
    have hargs : args.map (onRow db moment row) = args.map (onRow db' moment' row') := by
      refine List.map_congr_left fun a ha => ?_
      exact ih a ha (fun c hc => hreads c (mem_mentionsAll.mpr ⟨a, ha, hc⟩))
        (fun k hk => hkeys k (mem_joinKeysAll.mpr ⟨a, ha, hk⟩)) (hnow a ha) hwithin hrow
    rw [onRow_call hf, onRow_call hf, hargs, Builtin.apply_moment hf moment moment']
  | join source target inner ih =>
    have hsource : Combination.read row source = Combination.read row' source :=
      Combination.read_congr hrow (hreads source List.mem_cons_self)
    have htarget : reads target := hreads target (List.mem_cons_of_mem _ List.mem_cons_self)
    have hkey : db.IsKey source target := hkeys (source, target) List.mem_cons_self
    rw [onRow, onRow, ← hsource]
    rcases hdb.find htarget (hkey.length_filter_le_one hwithin) with
      ⟨hnone, hnone'⟩ | ⟨s, s', hs, hs', hss'⟩
    · rw [hnone, hnone']
    · rw [hs, hs']
      exact ih (fun c hc => hreads c (List.mem_cons_of_mem _ (List.mem_cons_of_mem _ hc)))
        (fun k hk => hkeys k (List.mem_cons_of_mem _ hk)) hnow
        (hwithin.cons (List.mem_of_find?_eq_some hs)) (List.Forall₂.cons hss' hrow)

/-! ### Answers -/

/-- The combinations of rows of some tables are alike in databases that agree on a column of each
table. -/
theorem Database.AgreesOn.combinations {db db' : Database} {reads : Column → Prop}
    (h : db.AgreesOn reads db') (ts : List String) (hts : ∀ t ∈ ts, ∃ n, reads ⟨t, n⟩) :
    Multiset.Rel (List.Forall₂ (Source.Alike reads)) (db.combinations ts : Multiset _)
      (db'.combinations ts : Multiset _) := by
  induction ts with
  | nil =>
    refine Multiset.rel_refl_of_refl_on fun row hrow => ?_
    obtain rfl : row = [] := Multiset.mem_singleton.mp hrow
    exact List.Forall₂.nil
  | cons t ts ih =>
    obtain ⟨n, hn⟩ := hts t List.mem_cons_self
    have hrest := ih fun t ht => hts t (List.mem_cons_of_mem _ ht)
    rw [Database.combinations, Database.combinations, ← Multiset.coe_bind, ← Multiset.coe_bind]
    refine Multiset.rel_bind (fun s s' hs => ?_) (h t n hn)
    rw [← Multiset.map_coe, ← Multiset.map_coe, Multiset.rel_map]
    exact hrest.mono fun row _ row' _ hrow => List.Forall₂.cons hs hrow

namespace Query

theorem expr_mem_exprs {q : Query} {r : ResultColumn} (h : r ∈ q.results) : r.expr ∈ q.exprs :=
  List.mem_append_left _ (List.mem_append_left _ (List.mem_map_of_mem h))

theorem predicate_mem_exprs {q : Query} {p : Expr} (h : p ∈ q.predicates) : p ∈ q.exprs :=
  List.mem_append_left _ (List.mem_append_right _ h)

theorem mem_columns_of_mem_mentions {q : Query} {e : Expr} (he : e ∈ q.exprs) {c : Column}
    (hc : c ∈ e.mentions) : c ∈ q.columns :=
  mem_columns.mpr ⟨e, he, Expr.mem_columns.mpr hc⟩

/-- A query reads a column of each of its root tables. -/
theorem exists_mem_columns_of_mem_rootTables {q : Query} {t : String} (h : t ∈ q.rootTables) :
    ∃ n, ⟨t, n⟩ ∈ q.columns := by
  obtain ⟨e, he, ht⟩ := List.mem_flatMap.mp (SortedSet.mem_ofList.mp h)
  obtain ⟨⟨_, n⟩, hc, rfl⟩ := Expr.exists_mem_mentions_of_mem_roots ht
  exact ⟨n, mem_columns_of_mem_mentions he hc⟩

variable {db db' : Database} {q : Query}

/-- An expression of a query has the same value in databases that agree on what the query reads. -/
theorem onRow_congr (hdb : db.AgreesOn (· ∈ q.columns) db') (hkeys : db.JoinsByKey q)
    (hnow : q.nowFree = true) (moment moment' : Binary64) {e : Expr} (he : e ∈ q.exprs)
    {row row' : Combination} (hwithin : row.Within db)
    (hrow : List.Forall₂ (Source.Alike (· ∈ q.columns)) row row') :
    e.onRow db moment row = e.onRow db' moment' row' :=
  Expr.onRow_congr moment moment' hdb (fun _ hc => mem_columns_of_mem_mentions he hc)
    (hkeys e he) (List.all_eq_true.mp hnow e he) hwithin hrow

/-- **The frame of a query.**  A query that does not ask for the moment has the same answer in
databases that agree on what it reads. -/
theorem answer_congr (hdb : db.AgreesOn (· ∈ q.columns) db') (hkeys : db.JoinsByKey q)
    (hnow : q.nowFree = true) (moment moment' : Binary64) :
    q.answer db moment = q.answer db' moment' := by
  have halike := hdb.combinations q.rootTables.toList fun t ht =>
    exists_mem_columns_of_mem_rootTables ht
  have hrows := halike.mono fun row hmem row' _ hrow =>
    And.intro (Database.within_of_mem_combinations (Multiset.mem_coe.mp hmem)) hrow
  have hkept : ∀ row row',
      Combination.Within db row ∧ List.Forall₂ (Source.Alike (· ∈ q.columns)) row row' →
        q.holdsOn db moment row = q.holdsOn db' moment' row' := by
    rintro row row' ⟨hwithin, hrow⟩
    unfold holdsOn
    rw [Bool.eq_iff_iff, List.all_eq_true, List.all_eq_true]
    refine forall₂_congr fun p hp => ?_
    rw [onRow_congr hdb hkeys hnow moment moment' (predicate_mem_exprs hp) hwithin hrow]
  refine map_eq_of_rel (rel_filter hrows hkept) fun row row' ⟨hwithin, hrow⟩ => ?_
  refine List.map_congr_left fun r hr => ?_
  rw [onRow_congr hdb hkeys hnow moment moment' (expr_mem_exprs hr) hwithin hrow]

end Query

end LiveQuery
