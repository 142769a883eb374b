import LiveQuery.Proofs.Aliases
import LiveQuery.Proofs.FirstFault

/-!
# Tests for some values

The test whether a term is one of some values is no operation of its own.  It is made of tests for
equality, one for each value, joined by disjunctions, and it is the constant zero if there are no
values.  Here it is shown to be what it stands for, the test for membership.

Truth has three values, so this is not only about sets.  A test for equality is unknown if one of
its sides is null, and an unknown alternative must not hide a true one.  A null literal among the
values is an exception to that: the comparison with it is a test for null.

The tests stand one after the other in a statement, and the joins in them are numbered through.  So
what the engine evaluates is not the same test several times: every alternative is evaluated at a
place of its own.  All that is said of the chain of alternatives follows from one induction
(`Term.anyOf_iff`), in which the place of an alternative is the number of joins before it.

## Main definitions

* `Operand.Holds`: an operand is known to be true.
* `Frame.Plain`: frames in which it does not matter where in a statement an expression stands.

## Main results

* `Term.anyOf_iff`: what can be said of a chain of alternatives.
* `Expr.onRow_anyEqual`, `Expr.eval_anyEqual`: a chain of tests holds if one of the tests does, on a
  row and in a statement.
* `Term.isIn_is_membership`: the test for some values is the test for membership.
-/

namespace LiveQuery

/-! ### Truth -/

/-- An operand is known to be true. -/
def Operand.Holds (o : Operand) : Prop := o.datum.truth = some true

instance (o : Operand) : Decidable o.Holds := inferInstanceAs (Decidable (_ = _))

/-- A disjunction is true if one side is, whatever is known of the other one. -/
theorem Datum.disjunction_eq_some_true_iff {a b : Option Bool} :
    disjunction a b = some true ↔ a = some true ∨ b = some true := by
  rcases a with _ | _ | _ <;> rcases b with _ | _ | _ <;> simp [disjunction]

/-- A disjunction holds if one of its sides does. -/
theorem Operand.holds_or {a b : Operand} :
    (computed (BinaryOp.apply .or a b)).Holds ↔ a.Holds ∨ b.Holds := by
  have htruth : (BinaryOp.apply .or a b).truth =
      Datum.disjunction a.datum.truth b.datum.truth := Datum.truth_ofTruth _
  rw [Holds, computed, htruth, Datum.disjunction_eq_some_true_iff]
  rfl

/-- A test for null holds just for null. -/
theorem Operand.holds_isNull {a : Operand} :
    (computed (UnaryOp.apply .isNull a.datum)).Holds ↔ a.datum.isNull = true := by
  have htruth : (UnaryOp.apply .isNull a.datum).truth = some a.datum.isNull :=
    Datum.truth_ofTruth (some a.datum.isNull)
  rw [Holds, computed, htruth, Option.some.injEq]

theorem Operand.not_holds_zero : ¬ (computed (.ofValue (.integer 0))).Holds := by
  decide +kernel

/-! ### Alternatives -/

/-- What holds of the parts of a list, each with what is before it, is told from its head and its
tail. -/
theorem exists_append_cons_iff {α : Type} {Q : List α → α → Prop} {a : α} {l : List α} :
    (∃ before b after, a :: l = before ++ b :: after ∧ Q before b) ↔
      Q [] a ∨ ∃ before b after, l = before ++ b :: after ∧ Q (a :: before) b := by
  constructor
  · rintro ⟨before, b, after, hl, hQ⟩
    rcases List.cons_eq_append_iff.mp hl with ⟨rfl, hl⟩ | ⟨before, rfl, rfl⟩
    · obtain ⟨rfl, -⟩ := List.cons.inj hl
      exact .inl hQ
    · exact .inr ⟨before, b, after, rfl, hQ⟩
  · rintro (hQ | ⟨before, b, after, rfl, hQ⟩)
    · exact ⟨[], a, l, rfl, hQ⟩
    · exact ⟨a :: before, b, after, rfl, hQ⟩

namespace Term

/-- **What can be said of a chain of alternatives.**  Something that is never said of zero, and of a
disjunction if it is said of one of its sides, is said of the chain if it is said of one of the
alternatives.  It may depend on how many joins are before an expression. -/
theorem anyOf_iff {P : Nat → Expr → Prop} (hzero : ∀ n, ¬ P n (.value (.integer 0)))
    (hor : ∀ n l r, P n (.binary .or l r) ↔ P n l ∨ P (n + l.joins) r) (tests : List Expr)
    (n : Nat) : P n (anyOf tests) ↔ ∃ before test after,
      tests = before ++ test :: after ∧ P (n + Expr.joinsAll before) test := by
  -- The chain grows to the left, so what stands before the next alternative is all of the chain.
  have hfold : ∀ (tests : List Expr) (chain : Expr), P n (tests.foldl (.binary .or) chain) ↔
      P n chain ∨ ∃ before test after, tests = before ++ test :: after ∧
        P (n + (chain.joins + Expr.joinsAll before)) test := by
    intro tests
    induction tests with
    | nil => simp
    | cons test tests ih =>
      intro chain
      rw [List.foldl_cons, ih, hor, or_assoc, exists_append_cons_iff]
      simp only [Expr.joins, Expr.joinsAll, Nat.add_zero, Nat.add_assoc]
  cases tests with
  | nil => simpa [anyOf] using hzero n
  | cons test tests =>
    rw [anyOf, hfold, exists_append_cons_iff]
    rfl

/-- The alternatives of a test for some values are the tests for the values. -/
theorem anyEqual_iff {P : Nat → Expr → Prop} (hzero : ∀ n, ¬ P n (.value (.integer 0)))
    (hor : ∀ n l r, P n (.binary .or l r) ↔ P n l ∨ P (n + l.joins) r) (e : Expr) (vs : List Expr)
    (n : Nat) : P n (anyEqual e vs) ↔ ∃ before v after, vs = before ++ v :: after ∧
      P (n + Expr.joinsAll (before.map (.binary .equal e))) (.binary .equal e v) := by
  rw [anyEqual_eq_anyOf, anyOf_iff hzero hor]
  constructor
  · rintro ⟨before, test, after, hmap, htest⟩
    obtain ⟨before, rest, rfl, rfl, hrest⟩ := List.map_eq_append_iff.mp hmap
    obtain ⟨v, after, rfl, rfl, rfl⟩ := List.map_eq_cons_iff.mp hrest
    exact ⟨before, v, after, rfl, htest⟩
  · rintro ⟨before, v, after, rfl, htest⟩
    exact ⟨_, _, _, List.map_append, htest⟩

/-- What does not depend on the place of an expression is said of the chain if it is said of the
test for one of the values. -/
theorem anyEqual_iff_exists_mem {P : Expr → Prop} (hzero : ¬ P (.value (.integer 0)))
    (hor : ∀ l r, P (.binary .or l r) ↔ P l ∨ P r) (e : Expr) (vs : List Expr) :
    P (anyEqual e vs) ↔ ∃ v ∈ vs, P (.binary .equal e v) := by
  rw [anyEqual_iff (P := fun _ => P) (fun _ => hzero) (fun _ => hor) e vs 0]
  constructor
  · rintro ⟨before, v, after, rfl, htest⟩
    exact ⟨v, List.mem_append_right _ List.mem_cons_self, htest⟩
  · rintro ⟨v, hv, htest⟩
    obtain ⟨before, after, rfl⟩ := List.append_of_mem hv
    exact ⟨before, v, after, rfl, htest⟩

end Term

/-! ### Tests on a row -/

namespace Expr

variable {db : Database} {moment : Binary64} {row : Combination}

/-- On a row, the test for some values holds if the test for one of them does. -/
theorem onRow_anyEqual {e : Expr} {vs : List Expr} :
    ((Term.anyEqual e vs).onRow db moment row).Holds ↔
      ∃ v ∈ vs, ((binary .equal e v).onRow db moment row).Holds :=
  Term.anyEqual_iff_exists_mem (P := fun e => (e.onRow db moment row).Holds)
    Operand.not_holds_zero (fun _ _ => Operand.holds_or) e vs

/-- To equal the null literal is to be null. -/
theorem onRow_equal_null {e : Expr} :
    ((binary .equal e null).onRow db moment row).Holds ↔
      (e.onRow db moment row).datum.isNull = true :=
  Operand.holds_isNull

/-- The columns of a test for some values are those of the tests. -/
theorem mem_columns_anyEqual {e : Expr} {vs : List Expr} {c : Column} :
    c ∈ (Term.anyEqual e vs).columns ↔ ∃ v ∈ vs, c ∈ e.columns ∨ c ∈ v.columns := by
  simp only [mem_columns]
  rw [Term.anyEqual_iff_exists_mem (P := fun e => c ∈ e.mentions) List.not_mem_nil
    (fun _ _ => List.mem_append)]
  exact exists_congr fun v => and_congr_right' List.mem_append

/-- If there are values, these are the columns of what is tested and those of the values. -/
theorem mem_columns_anyEqual_of_ne_nil {e : Expr} {vs : List Expr} (h : vs ≠ []) {c : Column} :
    c ∈ (Term.anyEqual e vs).columns ↔ c ∈ e.columns ∨ ∃ v ∈ vs, c ∈ v.columns := by
  rw [mem_columns_anyEqual]
  constructor
  · rintro ⟨v, hv, hc | hc⟩
    · exact .inl hc
    · exact .inr ⟨v, hv, hc⟩
  · rintro (hc | ⟨v, hv, hc⟩)
    · obtain ⟨v, hv⟩ := List.exists_mem_of_ne_nil vs h
      exact ⟨v, hv, .inl hc⟩
    · exact ⟨v, hv, .inr hc⟩

end Expr

/-! ### Tests in a statement -/

/-- The frames around a place stand for a row, and the names of some tables, those of the row among
them, can be told apart.  A column of these tables is then read from the row, whatever the numbers
of the joins are. -/
structure Frame.Plain (tables : String → Prop) (outermost : Combination) (n : Nat)
    (scopes : Scopes) (frames : List Frame) (row : Combination) : Prop where
  /-- The names can be told apart. -/
  apart : NamesApart tables
  /-- The names of the outermost row are among them. -/
  named : ∀ s ∈ outermost, tables s.name
  /-- The outermost row has one row of each table. -/
  nodup : (outermost.map (·.name)).Nodup
  /-- The frames stand for the row. -/
  stands : Frame.Stands outermost n scopes frames row

namespace Expr

variable {db : Database} {moment : Binary64} {row : Combination} {scopes : Scopes} {n : Nat}
  {frames : List Frame}

/-- In a statement, the test for some values holds if the test for one of them does, evaluated
behind the tests before it. -/
theorem eval_anyEqual {e : Expr} {vs : List Expr} :
    ((Term.anyEqual e vs).eval db moment scopes n frames).Holds ↔
      ∃ before v after, vs = before ++ v :: after ∧ ((binary .equal e v).eval db moment scopes
        (n + joinsAll (before.map (.binary .equal e))) frames).Holds :=
  Term.anyEqual_iff (P := fun n e => (e.eval db moment scopes n frames).Holds)
    (fun _ => Operand.not_holds_zero) (fun _ _ _ => Operand.holds_or) e vs n

/-- Without captured names and aggregates it does not matter that the tests stand one behind the
other: each is evaluated as if it stood alone. -/
theorem eval_anyEqual_of_plain {tables : String → Prop} {outermost : Combination}
    (h : Frame.Plain tables outermost n scopes frames row) {e : Expr} {vs : List Expr}
    (he : e.scalar = true) (hvs : ∀ v ∈ vs, v.scalar = true)
    (hcolumns : ∀ c ∈ (Term.anyEqual e vs).columns, tables c.table) :
    ((Term.anyEqual e vs).eval db moment scopes n frames).Holds ↔
      ∃ v ∈ vs, ((binary .equal e v).eval db moment scopes n frames).Holds := by
  have hvalue : ∀ e : Expr, e.scalar = true → (∀ c ∈ e.columns, tables c.table) →
      e.eval db moment scopes n frames = e.onRow db moment row := by
    intro e hscalar hc
    exact eval_eq_onRow h.apart h.named h.nodup db moment h.stands e hscalar
      fun c hmem => hc c (mem_columns.mpr hmem)
  have hchain : (Term.anyEqual e vs).scalar = true :=
    Term.anyEqual_of (P := fun e => e.scalar = true) rfl
      (fun _ _ _ hl hr => Bool.and_eq_true_iff.mpr ⟨hl, hr⟩) he hvs
  rw [hvalue _ hchain hcolumns, onRow_anyEqual]
  refine exists_congr fun v => and_congr_right fun hv => ?_
  rw [hvalue (binary .equal e v) (Bool.and_eq_true_iff.mpr ⟨he, hvs v hv⟩)]
  intro c hc
  refine hcolumns c (mem_columns_anyEqual.mpr ⟨v, hv, ?_⟩)
  exact (List.mem_append.mp (mem_columns.mp hc)).imp mem_columns.mpr mem_columns.mpr

end Expr

/-! ### Terms -/

namespace Term

variable {ι : Type} {m : Model ι} {root : ι} {t v : Term} {values : List Term} {e : Expr}
  {es : List Expr}

/-- Each of some terms has an expression. -/
theorem exists_mem_of_compileAll (h : compileAll m root values = .ok es) :
    ∀ v ∈ values, ∃ ev ∈ es, v.compile m root = .ok ev := by
  induction values generalizing es with
  | nil => exact fun v hv => absurd hv List.not_mem_nil
  | cons v values ih =>
    obtain ⟨ev, hev, hrest⟩ := exists_of_bind_eq_ok h
    obtain ⟨es', hes', rfl⟩ := exists_of_map_eq_ok hrest
    refine List.forall_mem_cons.mpr ⟨⟨ev, List.mem_cons_self, hev⟩, fun v' hv' => ?_⟩
    obtain ⟨ev', hmem, hev'⟩ := ih hes' v' hv'
    exact ⟨ev', List.mem_cons_of_mem _ hmem, hev'⟩

theorem compile_isIn (ht : t.compile m root = .ok e) (hvalues : compileAll m root values = .ok es) :
    (isIn t values).compile m root = .ok (anyEqual e es) := by
  rw [compile, ht, hvalues]
  rfl

theorem compile_equal {ev : Expr} (ht : t.compile m root = .ok e)
    (hv : v.compile m root = .ok ev) :
    (binary .equal t v).compile m root = .ok (.binary .equal e ev) := by
  rw [compile, ht, hv]
  rfl

/-- The tests for the values are what the comparisons of terms compile to. -/
theorem exists_test_iff {Q : Expr → Prop} (ht : t.compile m root = .ok e)
    (hvalues : compileAll m root values = .ok es) :
    (∃ ev ∈ es, Q (.binary .equal e ev)) ↔
      ∃ v ∈ values, ∃ test, (binary .equal t v).compile m root = .ok test ∧ Q test := by
  constructor
  · rintro ⟨ev, hev, htest⟩
    obtain ⟨v, hv, hcompile⟩ := exists_of_mem_compileAll hvalues ev hev
    exact ⟨v, hv, _, compile_equal ht hcompile, htest⟩
  · rintro ⟨v, hv, test, hcompile, htest⟩
    obtain ⟨ev, hev, hvalue⟩ := exists_mem_of_compileAll hvalues v hv
    obtain rfl := Except.ok.inj ((compile_equal ht hvalue).symm.trans hcompile)
    exact ⟨ev, hev, htest⟩

/-- **The test for some values is the test for membership.**  If a term and some values compile,
the test compiles, and on every row of every database it holds if the comparison with one of the
values does.  The null literal among the values stands for the rows on which the term is null, and
without values no row is found.  The columns are those of the term and of the values, if there are
any.

In a statement the comparisons stand one behind the other, each behind the joins of those before it.
If the tables can be told apart, they are evaluated as if each stood alone. -/
theorem isIn_is_membership (ht : t.compile m root = .ok e)
    (hvalues : compileAll m root values = .ok es) :
    ∃ chain, (isIn t values).compile m root = .ok chain ∧
      (∀ db moment row, (chain.onRow db moment row).Holds ↔ ∃ v ∈ values, ∃ test,
        (binary .equal t v).compile m root = .ok test ∧ (test.onRow db moment row).Holds) ∧
      (∀ v ∈ values, v.compile m root = .ok .null → ∃ test,
        (binary .equal t v).compile m root = .ok test ∧ ∀ db moment row,
          (test.onRow db moment row).Holds ↔ (e.onRow db moment row).datum.isNull = true) ∧
      (values = [] → ∀ db moment row, ¬ (chain.onRow db moment row).Holds) ∧
      (values ≠ [] → ∀ c, c ∈ chain.columns ↔ c ∈ e.columns ∨ ∃ ev ∈ es, c ∈ ev.columns) ∧
      (∀ db moment scopes n frames, (chain.eval db moment scopes n frames).Holds ↔
        ∃ before ev after, es = before ++ ev :: after ∧
          ((Expr.binary .equal e ev).eval db moment scopes
            (n + Expr.joinsAll (before.map (.binary .equal e))) frames).Holds) ∧
      ∀ tables outermost n scopes frames row,
        Frame.Plain tables outermost n scopes frames row →
        e.scalar = true → (∀ ev ∈ es, ev.scalar = true) →
        (∀ c ∈ chain.columns, tables c.table) → ∀ db moment,
          (chain.eval db moment scopes n frames).Holds ↔ ∃ v ∈ values, ∃ test,
            (binary .equal t v).compile m root = .ok test ∧
              (test.eval db moment scopes n frames).Holds := by
  refine ⟨anyEqual e es, compile_isIn ht hvalues, fun db moment row => ?_, fun v _ hv => ?_, ?_,
    ?_, fun _ _ _ _ _ => Expr.eval_anyEqual, ?_⟩
  · rw [Expr.onRow_anyEqual]
    exact exists_test_iff (Q := fun test => (test.onRow db moment row).Holds) ht hvalues
  · exact ⟨_, compile_equal ht hv, fun _ _ _ => Expr.onRow_equal_null⟩
  · rintro rfl db moment row
    obtain rfl := Except.ok.inj hvalues
    exact Operand.not_holds_zero
  · intro hne c
    refine Expr.mem_columns_anyEqual_of_ne_nil fun hnil => hne (List.eq_nil_of_length_eq_zero ?_)
    rw [← length_compileAll hvalues, hnil, List.length_nil]
  · intro tables outermost n scopes frames row h he hes hcolumns db moment
    rw [Expr.eval_anyEqual_of_plain h he hes hcolumns]
    exact exists_test_iff (Q := fun test => (test.eval db moment scopes n frames).Holds) ht hvalues

end Term

namespace Staff

/-- Whether the leader of somebody's company is called Ada, or is not known. -/
def ledByAda : Term := .isIn (.path leaderName) [.literal (.text "Ada"), .literal .null]

/-- If there are no companies, no leader is known.  The first alternative is then unknown, and the
test holds because of the second one. -/
theorem isIn_is_membership_ledByAda :
    (Term.path leaderName).compile model true = .ok leaderNameExpr ∧
      ∃ chain, ledByAda.compile model true = .ok chain ∧
        ∀ moment, (chain.onRow .empty moment []).Holds := by
  have hpath : (Term.path leaderName).compile model true = .ok leaderNameExpr := rfl
  have hvalues : Term.compileAll model true [.literal (.text "Ada"), .literal .null] =
      .ok [.value (.text "Ada"), .null] := rfl
  obtain ⟨chain, hchain, hholds, hnull, -⟩ := Term.isIn_is_membership hpath hvalues
  have hmem : Term.literal .null ∈ [Term.literal (.text "Ada"), .literal .null] :=
    List.mem_cons_of_mem _ List.mem_cons_self
  obtain ⟨test, htest, hisNull⟩ := hnull _ hmem rfl
  refine ⟨hpath, chain, hchain, fun moment => (hholds _ _ _).mpr ⟨_, hmem, test, htest, ?_⟩⟩
  exact (hisNull _ _ _).mpr rfl

end Staff

end LiveQuery
