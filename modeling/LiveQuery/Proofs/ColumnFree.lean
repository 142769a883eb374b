import LiveQuery.Proofs.History
import LiveQuery.Proofs.Results

/-!
# Requests without columns

A query ranges over the tables that its expressions mention, not over the table of the entity that
it was requested for.  A request whose terms mention no property, such as one for the moment, has no
table to range over: it gives a single row if all its conditions hold and none otherwise, whatever
rows the entity has (`Store.fetch_columnFree`).

## Main definitions

* `Term.columnFree`, `Request.columnFree`: terms and requests that mention no property.
* `Expr.Closed`, `Expr.constant`: expressions without columns, and what they come to.

## Main results

* `Request.closed_of_compile`: such requests compile to closed expressions.
* `Query.answer_eq_of_closed`: a query of closed expressions has one row at most.
* `Store.fetch_columnFree`: what is fetched.
-/

namespace LiveQuery

/-! ### Closed expressions -/

namespace Expr

/-- An expression without columns and without aggregates. -/
structure Closed (e : Expr) : Prop where
  mentions : e.mentions = []
  scalar : e.scalar = true

/-- What an expression without columns comes to. -/
def constant (moment : Binary64) (e : Expr) : Datum := (e.onRow .empty moment []).datum

theorem scalarAll_eq_true_iff {es : List Expr} :
    scalarAll es = true ↔ ∀ e ∈ es, e.scalar = true := by
  induction es with
  | nil => simp [scalarAll]
  | cons e es ih => simp [scalarAll, ih]

theorem closed_unary {op : UnaryOp} {e : Expr} (h : e.Closed) : (unary op e).Closed :=
  ⟨h.mentions, h.scalar⟩

theorem closed_binary {op : BinaryOp} {l r : Expr} (hl : l.Closed) (hr : r.Closed) :
    (binary op l r).Closed :=
  ⟨List.append_eq_nil_iff.mpr ⟨hl.mentions, hr.mentions⟩,
    Bool.and_eq_true_iff.mpr ⟨hl.scalar, hr.scalar⟩⟩

/-- A call of a function that is no aggregate is closed if its arguments are. -/
theorem closed_call {f : Builtin} {args : List Expr} (hplain : f.isAggregate args.length = false)
    (h : ∀ e ∈ args, e.Closed) : (call f args).Closed where
  mentions := by
    refine List.eq_nil_iff_forall_not_mem.mpr fun c hc => ?_
    obtain ⟨e, he, hc⟩ := mem_mentionsAll.mp hc
    rw [(h e he).mentions] at hc
    cases hc
  scalar := by
    have hargs := scalarAll_eq_true_iff.mpr fun e he => (h e he).scalar
    cases f <;> simp [scalar, hplain, hargs]

/-- A chain of tests for equality is closed if what is compared is. -/
theorem closed_anyEqual {e : Expr} {vs : List Expr} (he : e.Closed) (hvs : ∀ v ∈ vs, v.Closed) :
    (Term.anyEqual e vs).Closed :=
  Term.anyEqual_of ⟨rfl, rfl⟩ (fun _ _ _ => closed_binary) he hvs

/-- Without columns, the value of an expression depends on no row of any database. -/
theorem onRow_eq_of_mentions {e : Expr} (h : e.mentions = []) (db db' : Database)
    (moment : Binary64) (row row' : Combination) :
    e.onRow db moment row = e.onRow db' moment row' := by
  induction e using Expr.induct with
  | value v => rfl
  | column c => cases h
  | unary op e ih => rw [onRow, onRow, ih h]
  | binary op l r ihl ihr =>
    obtain ⟨hl, hr⟩ := List.append_eq_nil_iff.mp h
    rw [onRow, onRow, ihl hl, ihr hr]
  | call f args ih =>
    by_cases hf : f = .now
    · subst hf
      rfl
    · have hargs : args.map (onRow db moment row) = args.map (onRow db' moment row') := by
        refine List.map_congr_left fun a ha => ih a ha (List.eq_nil_iff_forall_not_mem.mpr ?_)
        intro c hc
        have hmem : c ∈ mentions (call f args) := mem_mentionsAll.mpr ⟨a, ha, hc⟩
        rw [h] at hmem
        cases hmem
      rw [onRow_call hf, onRow_call hf, hargs]
  | join source target inner ih => cases h

theorem Closed.datum_onRow {e : Expr} (h : e.Closed) (db : Database) (moment : Binary64)
    (row : Combination) : (e.onRow db moment row).datum = e.constant moment := by
  rw [constant, onRow_eq_of_mentions h.mentions db .empty moment row []]

end Expr

/-! ### Terms without columns -/

namespace Term

mutual

/-- Whether a term is made of constants, the moment, operations and functions only. -/
def columnFree : Term → Bool
  | path _ => false
  | literal _ => true
  | raw e => e.mentions.isEmpty && e.scalar
  | unary _ t => columnFree t
  | binary _ l r => columnFree l && columnFree r
  | isIn t values => columnFree t && columnFreeAll values
  | length t => columnFree t
  | coalesce t fallback => columnFree t && columnFree fallback
  | greatest args => columnFreeAll args
  | least args => columnFreeAll args
  | now => true

/-- Whether some terms are. -/
def columnFreeAll : List Term → Bool
  | [] => true
  | t :: ts => columnFree t && columnFreeAll ts

end

theorem columnFreeAll_eq_true_iff {ts : List Term} :
    columnFreeAll ts = true ↔ ∀ t ∈ ts, t.columnFree = true := by
  induction ts with
  | nil => simp [columnFreeAll]
  | cons t ts ih => simp [columnFreeAll, ih]

variable {ι : Type} {m : Model ι} {root : ι}

/-- With two arguments or more, a function is no aggregate. -/
theorem closed_of_variadic {f : Builtin} {ts : List Term} {e : Expr}
    (h : variadic f ts.length (compileAll m root ts) = .ok e)
    (hall : ∀ es, compileAll m root ts = .ok es → ∀ e ∈ es, e.Closed) : e.Closed := by
  obtain ⟨es, hes, hcount, rfl⟩ := exists_of_variadic_eq_ok h
  refine Expr.closed_call ?_ (hall es hes)
  have hone : (es.length == 1) = false := beq_false_of_ne (by omega)
  rw [Builtin.isAggregate, hone, Bool.and_false]

mutual

/-- **A term without columns compiles to a closed expression.** -/
theorem closed_of_compile : (t : Term) → t.columnFree = true → {e : Expr} →
    t.compile m root = .ok e → e.Closed
  | path p, hfree, _, _ => by cases hfree
  | literal v, _, _, h => by
    obtain rfl := Except.ok.inj h
    exact ⟨rfl, rfl⟩
  | raw e, hfree, _, h => by
    obtain rfl := Except.ok.inj h
    obtain ⟨hmentions, hscalar⟩ := Bool.and_eq_true_iff.mp hfree
    exact ⟨List.isEmpty_iff.mp hmentions, hscalar⟩
  | unary op t, hfree, _, h => by
    obtain ⟨e, he, rfl⟩ := exists_of_map_eq_ok h
    exact Expr.closed_unary (closed_of_compile t hfree he)
  | binary op l r, hfree, _, h => by
    obtain ⟨hl, hr⟩ := Bool.and_eq_true_iff.mp hfree
    obtain ⟨e, he, hrest⟩ := exists_of_bind_eq_ok h
    obtain ⟨e', he', rfl⟩ := exists_of_map_eq_ok hrest
    exact Expr.closed_binary (closed_of_compile l hl he) (closed_of_compile r hr he')
  | isIn t values, hfree, _, h => by
    obtain ⟨ht, hvalues⟩ := Bool.and_eq_true_iff.mp hfree
    obtain ⟨e, he, hrest⟩ := exists_of_bind_eq_ok h
    obtain ⟨vs, hvs, rfl⟩ := exists_of_map_eq_ok hrest
    exact Expr.closed_anyEqual (closed_of_compile t ht he)
      (closed_of_compileAll values hvalues hvs)
  | length t, hfree, _, h => by
    obtain ⟨e, he, rfl⟩ := exists_of_map_eq_ok h
    refine Expr.closed_call rfl (List.forall_mem_singleton.mpr ?_)
    exact closed_of_compile t hfree he
  | coalesce t fallback, hfree, _, h => by
    obtain ⟨ht, hfallback⟩ := Bool.and_eq_true_iff.mp hfree
    obtain ⟨e, he, hrest⟩ := exists_of_bind_eq_ok h
    obtain ⟨e', he', rfl⟩ := exists_of_map_eq_ok hrest
    refine Expr.closed_call rfl (List.forall_mem_cons.mpr ⟨closed_of_compile t ht he, ?_⟩)
    exact List.forall_mem_singleton.mpr (closed_of_compile fallback hfallback he')
  | greatest args, hfree, _, h => closed_of_variadic h fun _ => closed_of_compileAll args hfree
  | least args, hfree, _, h => closed_of_variadic h fun _ => closed_of_compileAll args hfree
  | now, _, _, h => by
    obtain rfl := Except.ok.inj h
    exact ⟨rfl, rfl⟩

/-- Terms without columns compile to closed expressions. -/
theorem closed_of_compileAll : (ts : List Term) → columnFreeAll ts = true → {es : List Expr} →
    compileAll m root ts = .ok es → ∀ e ∈ es, e.Closed
  | [], _, _, h => by
    obtain rfl := Except.ok.inj h
    simp
  | t :: ts, hfree, _, h => by
    obtain ⟨ht, hts⟩ := Bool.and_eq_true_iff.mp hfree
    obtain ⟨e, he, hrest⟩ := exists_of_bind_eq_ok h
    obtain ⟨es, hes, rfl⟩ := exists_of_map_eq_ok hrest
    exact List.forall_mem_cons.mpr ⟨closed_of_compile t ht he, closed_of_compileAll ts hts hes⟩

end

end Term

/-! ### Requests without columns -/

namespace Request

variable {ι : Type} {m : Model ι} {root : ι}

/-- Whether all terms of a request are without columns. -/
def columnFree (r : Request) : Bool :=
  r.selection.all (·.term.columnFree) && Term.columnFreeAll r.predicates &&
    r.order.all (·.1.columnFree)

/-- **A request without columns compiles to closed expressions.** -/
theorem closed_of_compile {request : Request} {q : Query} (hfree : request.columnFree = true)
    (h : request.compile m root = .ok q) : ∀ e ∈ q.exprs, e.Closed := by
  obtain ⟨hfree, horder⟩ := Bool.and_eq_true_iff.mp hfree
  obtain ⟨hselection, hpredicates⟩ := Bool.and_eq_true_iff.mp hfree
  have hterms : ∀ t ∈ request.terms, t.columnFree = true := by
    intro t ht
    rcases List.mem_append.mp ht with ht | ht
    · rcases List.mem_append.mp ht with ht | ht
      · obtain ⟨s, hs, rfl⟩ := List.mem_map.mp ht
        exact List.all_eq_true.mp hselection s hs
      · exact Term.columnFreeAll_eq_true_iff.mp hpredicates t ht
    · obtain ⟨k, hk, rfl⟩ := List.mem_map.mp ht
      exact List.all_eq_true.mp horder k hk
  intro e he
  obtain ⟨t, ht, hcompile⟩ := exists_of_mem_exprs h e he
  exact Term.closed_of_compile t (hterms t ht) hcompile

end Request

/-! ### Queries of closed expressions -/

namespace Query

variable {q : Query}

/-- Whether all conditions hold, if no column is in them. -/
def holds (moment : Binary64) (q : Query) : Bool :=
  q.predicates.all fun p => (p.constant moment).truth == some true

/-- The results, if no column is in them. -/
def constants (moment : Binary64) (q : Query) : List Value :=
  q.results.map fun r => (r.expr.constant moment).toValue

theorem notMem_tables_of_closed (hclosed : ∀ e ∈ q.exprs, e.Closed) (t : String) :
    t ∉ q.tables := by
  intro ht
  obtain ⟨c, hc, rfl⟩ := mem_tables.mp ht
  obtain ⟨e, he, hmem⟩ := mem_columns.mp hc
  rw [Expr.mem_columns, (hclosed e he).mentions] at hmem
  cases hmem

/-- There is no table to range over, so there is one combination of rows: that of none. -/
theorem answer_eq_of_closed (hclosed : ∀ e ∈ q.exprs, e.Closed) (db : Database)
    (moment : Binary64) :
    q.answer db moment = if q.holds moment then {q.constants moment} else 0 := by
  have hroots : q.rootTables.toList = [] :=
    List.eq_nil_iff_forall_not_mem.mpr fun t ht =>
      notMem_tables_of_closed hclosed t (mem_tables_of_mem_rootTables ht)
  have hholds : q.holdsOn db moment [] = q.holds moment := by
    rw [holdsOn, holds, Bool.eq_iff_iff, List.all_eq_true, List.all_eq_true]
    refine forall₂_congr fun p hp => ?_
    rw [(hclosed p (predicate_mem_exprs hp)).datum_onRow]
  have hresults : q.resultsOn db moment [] = q.constants moment := by
    refine List.map_congr_left fun r hr => ?_
    rw [(hclosed r.expr (expr_mem_exprs hr)).datum_onRow]
  rw [answer, hroots, Database.combinations, Multiset.coe_singleton, Multiset.filter_singleton,
    hholds]
  split
  next => rw [Multiset.map_singleton, hresults]
  next => rfl

end Query

/-- The engine gives that row, unless there is a fault in the query. -/
theorem Database.run_eq_of_closed (db : Database) {q : Query} (hresults : q.results ≠ [])
    (hclosed : ∀ e ∈ q.exprs, e.Closed) (moment : Binary64) :
    db.run moment q =
      match q.fault? db with
      | some e => .error e
      | none => .ok (if q.holds moment then [q.constants moment] else []) := by
  have hscalar : q.scalar = true := List.all_eq_true.mpr fun e he => (hclosed e he).scalar
  have hapart : NamesApart (· ∈ q.tables) :=
    ⟨fun t ht => absurd ht (Query.notMem_tables_of_closed hclosed t),
      fun t _ ht => absurd ht (Query.notMem_tables_of_closed hclosed t)⟩
  cases hfault : q.fault? db with
  | some e => rw [run, hfault]
  | none =>
    have hrun : db.run moment q = .ok ((q.frames db moment).map (db.resultValues moment q)) := by
      rw [run, hfault]
    have hrows := db.answersRowwise hresults hscalar hapart moment _ hrun
    rw [Query.answer_eq_of_closed hclosed] at hrows
    rw [hrun]
    by_cases hholds : q.holds moment = true
    · rw [if_pos hholds] at hrows ⊢
      rw [Multiset.coe_eq_singleton.mp hrows]
    · rw [if_neg hholds] at hrows ⊢
      rw [Multiset.coe_eq_zero _ |>.mp hrows]

/-! ### Fetching -/

/-- **A request without columns gives one row at most.**  It is the row of constants if all
conditions hold, and this does not depend on the rows of any table. -/
theorem Store.fetch_columnFree {ι α : Type} {m : Model ι} {root : ι} {request : Request}
    {q : Query} (hselection : request.selection ≠ []) (hfree : request.columnFree = true)
    (hcompile : request.compile m root = .ok q) (s : Store) (moment : Binary64)
    (decode : Row → Except DecodeError α) :
    s.fetch m root moment request decode =
      match q.fault? s.database with
      | some e => .error (.storage e)
      | none =>
        if q.holds moment then
          ((decode (resultRow q.names (q.constants moment))).map ([·])).mapError .decode
        else .ok [] := by
  have hresults := Request.results_ne_nil hselection hcompile
  have hnames : s.database.resultNames q = q.names := by
    rw [Database.resultNames, if_neg (by simpa using hresults)]
  rw [fetch_eq hcompile, results, hnames,
    s.database.run_eq_of_closed hresults (Request.closed_of_compile hfree hcompile)]
  cases q.fault? s.database with
  | some e => rfl
  | none =>
    by_cases hholds : q.holds moment = true
    · simp only [if_pos hholds, List.map_cons, List.map_nil, decodeRows]
      cases decode (resultRow q.names (q.constants moment)) <;> rfl
    · simp only [if_neg hholds]
      rfl

/-! ### An example -/

namespace Session

/-- A store with two notes. -/
def twoNotes : Store :=
  let opened : Store := ⟨(Store.open? notes [()] .empty).2, ∅⟩
  let written := (opened.insert notes () noIdentifier (.ofInt 1) (note 1 "a")).2
  (written.insert notes () noIdentifier (.ofInt 2) (note 2 "b")).2

/-- Asks for a constant on some conditions. -/
def one (conditions : List Term) : Request :=
  ⟨[⟨some "one", .literal (.integer 1)⟩], conditions, []⟩

/-- The moment is never null, so this condition leaves no row. -/
theorem fetch_one_of_now : twoNotes.fetch notes () (.ofInt 3) (one [.unary .isNull .now]) .ok =
    .ok ([] : List Row) := by
  have hcompile : (one [.unary .isNull .now]).compile notes () =
      .ok ⟨[⟨.value (.integer 1), some "one"⟩], [.unary .isNull .now], []⟩ := by decide +kernel
  rw [Store.fetch_columnFree (by decide) (by decide) hcompile]
  decide +kernel

/-- Without a condition there is one row, not one for each note. -/
theorem fetch_one : (twoNotes.database.rows "Note" "Note").length = 2 ∧
    twoNotes.fetch notes () (.ofInt 3) (one []) .ok = .ok [.ofList [("one", .integer 1)]] := by
  decide +kernel

end Session

end LiveQuery
