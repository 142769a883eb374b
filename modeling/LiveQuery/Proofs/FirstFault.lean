import LiveQuery.Model.Request
import LiveQuery.Proofs.Paths
import Mathlib.Data.List.Infix
import Mathlib.Data.List.Nodup

/-!
# What terms and requests compile to

A term compiles to an expression of the same shape, or to an error.  Which error it is depends on
the order in which the parts of the term are visited, and every operation has a say in that order.
Here both are said at once for a whole term: the expression is a translation that knows nothing of
errors (`Term.translate`), and the error is the first fault on a walk through the term that visits
a part before the parts inside it, and these from left to right (`Term.fault?`).  A walk in this
order finds too few arguments before anything that is wrong with the arguments.

For a request the parts are visited in the order selection, predicates, sort keys.  An entry of the
selection may repeat the name of an entry before it, which counts as a fault of the entry behind
those of its term.

## Main definitions

* `unlessFault`: a result that is given unless there is a fault.
* `Term.translate`, `Request.translate`: the expression of a term, the query of a request.
* `Term.subterms`: the parts of a term in the order of the walk.
* `Term.fault?`, `Request.fault?`: the first fault in a term or a request.

## Main results

* `Term.compile_eq`, `Request.compile_eq`: compilation is translation up to the first fault.
* `Term.fault?_eq_none_iff`, `Request.fault?_eq_none_iff`: when there is none.
* `Request.compile_translates`: all of it together.
-/

namespace LiveQuery

/-- A result that is given unless there is a fault, which is the error otherwise. -/
def unlessFault {α : Type} : Option CompileError → α → Except CompileError α
  | none, a => .ok a
  | some err, _ => .error err

section Unless

variable {α β γ : Type} {fault? fault?' : Option CompileError} {a : α} {b : β}

theorem unlessFault_eq_ok_iff {a' : α} :
    unlessFault fault? a = .ok a' ↔ fault? = none ∧ a = a' := by
  cases fault? <;> simp [unlessFault]

theorem unlessFault_eq_error_iff {err : CompileError} :
    unlessFault fault? a = .error err ↔ fault? = some err := by
  cases fault? <;> simp [unlessFault]

theorem map_unlessFault (f : α → β) :
    (unlessFault fault? a).map f = unlessFault fault? (f a) := by
  cases fault? <;> rfl

/-- Of two steps the faults of the first one come first. -/
theorem bind_unlessFault {f : α → Except CompileError β} (h : f a = unlessFault fault?' b) :
    (unlessFault fault? a).bind f = unlessFault (fault?.or fault?') b := by
  cases fault? with
  | none => exact h
  | some err => rfl

theorem bind_map_unlessFault (f : α → β → γ) :
    ((unlessFault fault? a).bind fun a => (unlessFault fault?' b).map (f a)) =
      unlessFault (fault?.or fault?') (f a b) :=
  bind_unlessFault (map_unlessFault (f a))

end Unless

variable {ι : Type} {m : Model ι} {root : ι}

/-! ### Terms -/

/-- The expression of a path, and null if it has none. -/
def KeyPath.translate (m : Model ι) (root : ι) (p : KeyPath) : Expr :=
  match p.compile m root with
  | .ok e => e
  | .error _ => .null

namespace Term

/-- The alternatives of some tests, joined from the left.  Without tests it is zero. -/
def anyOf : List Expr → Expr
  | [] => .value (.integer 0)
  | test :: tests => tests.foldl (.binary .or) test

mutual

/-- The expression of the same shape as a term, with an operation in place of every part. -/
def translate (m : Model ι) (root : ι) : Term → Expr
  | path p => p.translate m root
  | literal v => .value v
  | raw e => e
  | unary op t => .unary op (translate m root t)
  | binary op l r => .binary op (translate m root l) (translate m root r)
  | isIn t values =>
    anyOf ((translateAll m root values).map (.binary .equal (translate m root t)))
  | length t => .call .length [translate m root t]
  | coalesce t fallback => .call .coalesce [translate m root t, translate m root fallback]
  | greatest args => .call .max (translateAll m root args)
  | least args => .call .min (translateAll m root args)
  | now => .now

/-- The expressions of some terms. -/
def translateAll (m : Model ι) (root : ι) : List Term → List Expr
  | [] => []
  | t :: ts => translate m root t :: translateAll m root ts

end

mutual

/-- The parts of a term: the term itself before those inside it, and these from left to right. -/
def subterms : Term → List Term
  | path p => [path p]
  | literal v => [literal v]
  | raw e => [raw e]
  | unary op t => unary op t :: subterms t
  | binary op l r => binary op l r :: (subterms l ++ subterms r)
  | isIn t values => isIn t values :: (subterms t ++ subtermsAll values)
  | length t => length t :: subterms t
  | coalesce t fallback => coalesce t fallback :: (subterms t ++ subterms fallback)
  | greatest args => greatest args :: subtermsAll args
  | least args => least args :: subtermsAll args
  | now => [now]

/-- The parts of some terms, one term after the other. -/
def subtermsAll : List Term → List Term
  | [] => []
  | t :: ts => subterms t ++ subtermsAll ts

end

/-- What is wrong with a term apart from the terms inside it: a path that does not compile, or a
function with fewer than two arguments. -/
def ownFault? (m : Model ι) (root : ι) : Term → Option CompileError
  | path p =>
    match p.compile m root with
    | .ok _ => none
    | .error err => some err
  | greatest args =>
    if args.length < 2 then some (.tooFewArguments Builtin.max.name 2 args.length) else none
  | least args =>
    if args.length < 2 then some (.tooFewArguments Builtin.min.name 2 args.length) else none
  | _ => none

/-- The first fault in a term. -/
def fault? (m : Model ι) (root : ι) (t : Term) : Option CompileError :=
  t.subterms.findSome? (ownFault? m root)

theorem translateAll_eq_map (ts : List Term) :
    translateAll m root ts = ts.map (translate m root) := by
  induction ts with
  | nil => rfl
  | cons t ts ih => rw [translateAll, ih, List.map_cons]

theorem findSome?_subtermsAll (ts : List Term) :
    (subtermsAll ts).findSome? (ownFault? m root) = ts.findSome? (fault? m root) := by
  induction ts with
  | nil => rfl
  | cons t ts ih =>
    rw [subtermsAll, List.findSome?_append, ih, List.findSome?_cons, fault?]
    cases t.subterms.findSome? (ownFault? m root) <;> rfl

/-- The chain of tests for some values has the tests as its alternatives. -/
theorem anyEqual_eq_anyOf (e : Expr) (vs : List Expr) :
    anyEqual e vs = anyOf (vs.map (.binary .equal e)) := by
  cases vs with
  | nil => rfl
  | cons v vs => rw [anyEqual, List.map_cons, anyOf, List.foldl_map]

/-- Too few arguments are found before anything that is wrong with them. -/
theorem variadic_unlessFault (f : Builtin) (count : Nat) {fs? : Option CompileError}
    {es : List Expr} :
    variadic f count (unlessFault fs? es) =
      unlessFault ((if count < 2 then some (.tooFewArguments f.name 2 count) else none).or fs?)
        (.call f es) := by
  unfold variadic
  split
  · rfl
  · exact map_unlessFault _

mutual

/-- **A term compiles to its translation, up to the first fault in it.** -/
theorem compile_eq : (t : Term) →
    t.compile m root = unlessFault (t.fault? m root) (t.translate m root)
  | path p => by
    rw [compile, fault?, subterms, List.findSome?_singleton, translate, KeyPath.translate]
    cases h : p.compile m root <;> simp [ownFault?, h, unlessFault]
  | literal v => rfl
  | raw e => rfl
  | unary op t => by
    rw [compile, compile_eq t, map_unlessFault]
    rfl
  | binary op l r => by
    rw [compile, compile_eq l, compile_eq r, bind_map_unlessFault, fault?, fault?,
      ← List.findSome?_append]
    rfl
  | isIn t values => by
    rw [compile, compile_eq t, compileAll_eq values, bind_map_unlessFault, anyEqual_eq_anyOf,
      fault?, ← findSome?_subtermsAll, ← List.findSome?_append]
    rfl
  | length t => by
    rw [compile, compile_eq t, map_unlessFault]
    rfl
  | coalesce t fallback => by
    rw [compile, compile_eq t, compile_eq fallback, bind_map_unlessFault, fault?, fault?,
      ← List.findSome?_append]
    rfl
  | greatest args => by
    rw [compile, compileAll_eq args, variadic_unlessFault, fault?, subterms, List.findSome?_cons,
      findSome?_subtermsAll, ownFault?]
    split <;> rfl
  | least args => by
    rw [compile, compileAll_eq args, variadic_unlessFault, fault?, subterms, List.findSome?_cons,
      findSome?_subtermsAll, ownFault?]
    split <;> rfl
  | now => rfl

/-- Terms compile to their translations, up to the first fault in one of them. -/
theorem compileAll_eq : (ts : List Term) →
    compileAll m root ts = unlessFault (ts.findSome? (fault? m root)) (translateAll m root ts)
  | [] => rfl
  | t :: ts => by
    rw [compileAll, compile_eq t, compileAll_eq ts, bind_map_unlessFault, List.findSome?_cons]
    cases fault? m root t <;> rfl

end

/-- **When there is no fault in a term**: its paths compile, and its functions have their
arguments. -/
theorem fault?_eq_none_iff {t : Term} :
    t.fault? m root = none ↔ ∀ s ∈ t.subterms,
      (∀ p, s = path p → ∃ e, p.compile m root = .ok e) ∧
        ∀ args, s = greatest args ∨ s = least args → 2 ≤ args.length := by
  rw [fault?, List.findSome?_eq_none_iff]
  refine forall₂_congr fun s _ => ?_
  cases s with
  | path p => cases h : p.compile m root <;> simp [ownFault?, h]
  | greatest args =>
    simp only [ownFault?, ite_eq_right_iff, reduceCtorEq, imp_false, Nat.not_lt, greatest.injEq,
      or_false, forall_eq', false_implies, implies_true, true_and]
  | least args =>
    simp only [ownFault?, ite_eq_right_iff, reduceCtorEq, imp_false, Nat.not_lt, least.injEq,
      false_or, forall_eq', false_implies, implies_true, true_and]
  | _ => simp [ownFault?]

end Term

/-! ### Requests -/

namespace Selected

/-- The result column of a selected term. -/
def translate (m : Model ι) (root : ι) (s : Selected) : ResultColumn :=
  ⟨s.term.translate m root, s.name⟩

/-- The name of the result of a selected term. -/
def title (m : Model ι) (root : ι) (s : Selected) : String := (s.translate m root).name

/-- The first fault of an entry of a selection behind others: one of its term, or the repetition of
the name of an entry before it. -/
def fault? (m : Model ι) (root : ι) (before : List Selected) (s : Selected) :
    Option CompileError :=
  (s.term.fault? m root).or <|
    if s.title m root ∈ before.map (title m root) then
      some (.duplicateResultName (s.title m root))
    else none

/-- There is no fault in an entry if there is none in its term and its name is new. -/
theorem fault?_eq_none_iff {before : List Selected} {s : Selected} :
    s.fault? m root before = none ↔
      s.term.fault? m root = none ∧ s.title m root ∉ before.map (title m root) := by
  rw [fault?, Option.or_eq_none_iff]
  simp

end Selected

namespace Request

/-- The query of the same shape as a request. -/
def translate (m : Model ι) (root : ι) (r : Request) : Query :=
  ⟨r.selection.map (Selected.translate m root), r.predicates.map (Term.translate m root),
    r.order.map fun key => ⟨key.1.translate m root, key.2⟩⟩

/-- The first fault in a selection, each entry being looked at behind those before it. -/
def selectionFault? (m : Model ι) (root : ι) (selection : List Selected) : Option CompileError :=
  (selection.inits.zip selection).findSome? fun p => p.2.fault? m root p.1

/-- The first fault in a request: in its selection, then in its predicates, then in its sort
keys. -/
def fault? (m : Model ι) (root : ι) (r : Request) : Option CompileError :=
  (selectionFault? m root r.selection).or <|
    (r.predicates.findSome? (Term.fault? m root)).or <|
      r.order.findSome? fun key => key.1.fault? m root

/-- What is looked at in a selection that stands behind other entries. -/
theorem findSome?_entries (before : List Selected) (s : Selected) (rest : List Selected) :
    ((s :: rest).inits.zip (s :: rest)).findSome? (fun p => p.2.fault? m root (before ++ p.1)) =
      (s.fault? m root before).or
        ((rest.inits.zip rest).findSome? fun p => p.2.fault? m root (before ++ [s] ++ p.1)) := by
  rw [List.inits_cons, List.zip_cons_cons, List.findSome?_cons, List.append_nil, List.zip_map_left,
    List.findSome?_map]
  simp only [Function.comp_def, Prod.map_fst, Prod.map_snd, id_eq, List.append_assoc,
    List.singleton_append]
  cases s.fault? m root before <;> rfl

/-- A selection behind other entries compiles to its result columns, up to the first fault. -/
theorem compileSelection_eq {selection : List Selected} (before : List Selected)
    {taken : List String} (htaken : ∀ n, n ∈ taken ↔ n ∈ before.map (Selected.title m root)) :
    compileSelection m root taken selection =
      unlessFault
        ((selection.inits.zip selection).findSome? fun p => p.2.fault? m root (before ++ p.1))
        (selection.map (Selected.translate m root)) := by
  induction selection generalizing before taken with
  | nil => rfl
  | cons s rest ih =>
    have htaken' : ∀ n, n ∈ s.title m root :: taken ↔
        n ∈ (before ++ [s]).map (Selected.title m root) := fun n => by simp [htaken, or_comm]
    have hrest := ih (before ++ [s]) htaken'
    have hcontains : taken.contains (s.title m root) = true ↔
        s.title m root ∈ before.map (Selected.title m root) :=
      List.contains_iff_mem.trans (htaken _)
    rw [findSome?_entries, Selected.fault?, Option.or_assoc, compileSelection, s.term.compile_eq]
    refine bind_unlessFault ?_
    by_cases hname : s.title m root ∈ before.map (Selected.title m root)
    · rw [if_pos hname]
      exact if_pos (hcontains.mpr hname)
    · rw [if_neg hname]
      refine (if_neg (mt hcontains.mp hname)).trans ?_
      exact (congrArg (Except.map _) hrest).trans (map_unlessFault _)

/-- Sort keys compile to their translations, up to the first fault in one of them. -/
theorem compileOrder_eq (keys : List (Term × Direction)) :
    compileOrder m root keys =
      unlessFault (keys.findSome? fun key => key.1.fault? m root)
        (keys.map fun key => ⟨key.1.translate m root, key.2⟩) := by
  induction keys with
  | nil => rfl
  | cons key rest ih =>
    rw [compileOrder, key.1.compile_eq, ih, List.findSome?_cons]
    refine (bind_map_unlessFault fun e order => (⟨e, key.2⟩ : SortKey) :: order).trans ?_
    cases key.1.fault? m root <;> rfl

/-- **A request compiles to its translation, up to the first fault in it.** -/
theorem compile_eq (r : Request) :
    r.compile m root = unlessFault (r.fault? m root) (r.translate m root) := by
  have hselection : compileSelection m root [] r.selection =
      unlessFault (selectionFault? m root r.selection)
        (r.selection.map (Selected.translate m root)) :=
    compileSelection_eq [] fun n => by simp
  rw [compile, hselection, Term.compileAll_eq, compileOrder_eq, Term.translateAll_eq_map]
  refine bind_unlessFault ?_
  exact bind_map_unlessFault (Query.mk (r.selection.map (Selected.translate m root)))

/-- There is no fault in a selection behind other entries if there is none in its terms and no name
is repeated. -/
theorem findSome?_entries_eq_none_iff {selection : List Selected} (before : List Selected) :
    ((selection.inits.zip selection).findSome? fun p => p.2.fault? m root (before ++ p.1)) = none ↔
      (∀ s ∈ selection, s.term.fault? m root = none ∧
        s.title m root ∉ before.map (Selected.title m root)) ∧
        (selection.map (Selected.title m root)).Nodup := by
  induction selection generalizing before with
  | nil => simp
  | cons s rest ih =>
    -- a name behind the first entry is new if it is neither that of the entry nor taken before
    have hrest : (∀ s' ∈ rest, s'.term.fault? m root = none ∧
          s'.title m root ∉ (before ++ [s]).map (Selected.title m root)) ↔
        (∀ s' ∈ rest, s'.term.fault? m root = none ∧
          s'.title m root ∉ before.map (Selected.title m root)) ∧
          s.title m root ∉ rest.map (Selected.title m root) := by
      simp only [List.map_append, List.map_singleton, List.mem_append, List.mem_singleton, not_or,
        ← and_assoc, forall₂_and, List.mem_map, not_exists, not_and]
    rw [findSome?_entries, Option.or_eq_none_iff, ih, hrest, Selected.fault?_eq_none_iff,
      List.map_cons, List.nodup_cons, List.forall_mem_cons]
    simp only [and_assoc]

/-- **When there is no fault in a request**: there is none in its terms, and no name is selected
twice. -/
theorem fault?_eq_none_iff {r : Request} :
    r.fault? m root = none ↔ (∀ t ∈ r.terms, t.fault? m root = none) ∧
      (r.selection.map (Selected.title m root)).Nodup := by
  have hselection : selectionFault? m root r.selection = none ↔
      (∀ s ∈ r.selection, s.term.fault? m root = none) ∧
        (r.selection.map (Selected.title m root)).Nodup := by
    simpa only [selectionFault?, List.nil_append, List.map_nil, List.not_mem_nil, not_false_eq_true,
      and_true] using findSome?_entries_eq_none_iff (m := m) []
  have hterms : (∀ t ∈ r.terms, t.fault? m root = none) ↔
      (∀ s ∈ r.selection, s.term.fault? m root = none) ∧
        (∀ t ∈ r.predicates, t.fault? m root = none) ∧
          ∀ key ∈ r.order, key.1.fault? m root = none := by
    simp only [terms, List.forall_mem_append, List.forall_mem_map, and_assoc]
  rw [fault?, Option.or_eq_none_iff, Option.or_eq_none_iff, hselection, hterms,
    List.findSome?_eq_none_iff, List.findSome?_eq_none_iff, and_right_comm]

/-- **What terms and requests compile to.**  Both compile to their translations up to the first
fault.  In a term there is none exactly if all its paths compile and all its functions have two
arguments; in a request there is none exactly if there is none in its terms and its results have
different names. -/
theorem compile_translates (m : Model ι) (root : ι) :
    (∀ t : Term, t.compile m root = unlessFault (t.fault? m root) (t.translate m root)) ∧
      (∀ t : Term, t.fault? m root = none ↔ ∀ s ∈ t.subterms,
        (∀ p, s = .path p → ∃ e, p.compile m root = .ok e) ∧
          ∀ args, s = .greatest args ∨ s = .least args → 2 ≤ args.length) ∧
      (∀ r : Request, r.compile m root = unlessFault (r.fault? m root) (r.translate m root)) ∧
      ∀ r : Request, r.fault? m root = none ↔ (∀ t ∈ r.terms, t.fault? m root = none) ∧
        (r.selection.map (Selected.title m root)).Nodup :=
  ⟨Term.compile_eq, fun _ => Term.fault?_eq_none_iff, compile_eq, fun _ => fault?_eq_none_iff⟩

end Request

/-! ### Faults that stand before others -/

namespace Staff

/-- Asks for people and the leaders of their companies under one name, on the condition that some
property that people do not have is positive. -/
def namesakes : Request where
  selection := [⟨some "name", .path (.property "name")⟩, ⟨some "name", .path leaderName⟩]
  predicates := [.binary .less (.literal (.integer 0)) (.path (.property "age"))]
  order := []

/-- Too few arguments are found before an unknown property that is among them, and a name that is
selected twice before an unknown property in a condition. -/
theorem compile_translates_namesakes :
    (Term.greatest [.path (.property "age")]).compile model true =
        .error (.tooFewArguments "max" 2 1) ∧
      namesakes.compile model true = .error (.duplicateResultName "name") ∧
      (Term.path leaderName).compile model true = .ok leaderNameExpr := by
  obtain ⟨hterm, -, hrequest, -⟩ := Request.compile_translates model true
  rw [hterm, hterm, hrequest]
  exact ⟨rfl, rfl, rfl⟩

end Staff

end LiveQuery
