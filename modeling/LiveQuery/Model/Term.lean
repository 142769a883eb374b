import LiveQuery.Model.KeyPath
import LiveQuery.Statement.Render

/-!
# Terms

A term is an expression over the properties of an entity.  It compiles to an expression over
columns, or to the error met first: an operand before the operands after it, and the number of
arguments of a function before its arguments.

## Main definitions

* `Term`: the terms.
* `Term.compile`: the expression of a term.
-/

namespace LiveQuery

/-- An expression over the properties of an entity. -/
inductive Term where
  /-- A property, possibly of a related entity. -/
  | path (p : KeyPath)
  /-- A constant. -/
  | literal (v : Value)
  /-- An expression over columns, taken as it is. -/
  | raw (e : Expr)
  /-- An operation on one operand. -/
  | unary (op : UnaryOp) (operand : Term)
  /-- An operation on two operands. -/
  | binary (op : BinaryOp) (left right : Term)
  /-- Whether the term equals one of some values.  It equals none of an empty list. -/
  | isIn (term : Term) (values : List Term)
  /-- The number of characters of a text. -/
  | length (operand : Term)
  /-- The term, or a fallback where it is null. -/
  | coalesce (term fallback : Term)
  /-- The greatest of two or more terms. -/
  | greatest (args : List Term)
  /-- The least of two or more terms. -/
  | least (args : List Term)
  /-- The current moment. -/
  | now
deriving Inhabited

namespace Term

/-- The test whether a to-one relationship refers to the row with a given identifier. -/
def refersTo (p : KeyPath) (id : Value) : Term := .binary .equal (.path p) (.literal id)

/-- The test whether an expression equals one of some values: a chain of alternatives, and the
constant zero for an empty list. -/
def anyEqual (e : Expr) : List Expr → Expr
  | [] => .value (.integer 0)
  | v :: rest => rest.foldl (fun chain v => .binary .or chain (.binary .equal e v))
      (.binary .equal e v)

/-- The call of a function that needs two arguments. -/
def variadic (f : Builtin) (count : Nat) (args : Except CompileError (List Expr)) :
    Except CompileError Expr :=
  if count < 2 then .error (.tooFewArguments f.name 2 count) else args.map (.call f)

mutual

/-- The expression of a term over a root entity. -/
def compile {ι : Type} (m : Model ι) (root : ι) : Term → Except CompileError Expr
  | path p => p.compile m root
  | literal v => .ok (.value v)
  | raw e => .ok e
  | unary op t => (compile m root t).map (.unary op)
  | binary op l r =>
    (compile m root l).bind fun l => (compile m root r).map fun r => .binary op l r
  | isIn t values =>
    (compile m root t).bind fun e => (compileAll m root values).map (anyEqual e)
  | length t => (compile m root t).map fun e => .call .length [e]
  | coalesce t fallback =>
    (compile m root t).bind fun e =>
      (compile m root fallback).map fun f => .call .coalesce [e, f]
  | greatest args => variadic .max args.length (compileAll m root args)
  | least args => variadic .min args.length (compileAll m root args)
  | now => .ok .now

/-- The expressions of some terms, compiled one after the other. -/
def compileAll {ι : Type} (m : Model ι) (root : ι) : List Term → Except CompileError (List Expr)
  | [] => .ok []
  | t :: ts =>
    (compile m root t).bind fun e => (compileAll m root ts).map fun es => e :: es

end

/-! ### Compiled terms -/

/-- What holds of the constant zero, and of operations if it holds of their operands, holds of a
test for some values if it holds of what is compared. -/
theorem anyEqual_of {P : Expr → Prop} (hnone : P (.value (.integer 0)))
    (hbinary : ∀ op l r, P l → P r → P (.binary op l r)) {e : Expr} {vs : List Expr} (he : P e)
    (hvs : ∀ v ∈ vs, P v) : P (anyEqual e vs) := by
  have hfold : ∀ (vs : List Expr), (∀ v ∈ vs, P v) → ∀ chain : Expr, P chain →
      P (vs.foldl (fun chain v => .binary .or chain (.binary .equal e v)) chain) := by
    intro vs
    induction vs with
    | nil => exact fun _ chain h => h
    | cons v vs ih =>
      intro hvs chain hchain
      obtain ⟨hv, hvs⟩ := List.forall_mem_cons.mp hvs
      exact ih hvs _ (hbinary _ _ _ hchain (hbinary _ _ _ he hv))
  cases vs with
  | nil => exact hnone
  | cons v vs =>
    obtain ⟨hv, hvs⟩ := List.forall_mem_cons.mp hvs
    exact hfold vs hvs _ (hbinary _ _ _ he hv)

theorem length_compileAll {ι : Type} {m : Model ι} {root : ι} {ts : List Term} {es : List Expr}
    (h : compileAll m root ts = .ok es) : es.length = ts.length := by
  induction ts generalizing es with
  | nil =>
    obtain rfl := Except.ok.inj h
    rfl
  | cons t ts ih =>
    obtain ⟨e, -, hrest⟩ := exists_of_bind_eq_ok h
    obtain ⟨es', hes', rfl⟩ := exists_of_map_eq_ok hrest
    exact congrArg (· + 1) (ih hes')

/-- Each expression comes from one of the terms. -/
theorem exists_of_mem_compileAll {ι : Type} {m : Model ι} {root : ι} {ts : List Term}
    {es : List Expr} (h : compileAll m root ts = .ok es) :
    ∀ e ∈ es, ∃ t ∈ ts, t.compile m root = .ok e := by
  induction ts generalizing es with
  | nil =>
    obtain rfl := Except.ok.inj h
    exact fun e he => absurd he List.not_mem_nil
  | cons t ts ih =>
    obtain ⟨e, he, hrest⟩ := exists_of_bind_eq_ok h
    obtain ⟨es', hes', rfl⟩ := exists_of_map_eq_ok hrest
    refine List.forall_mem_cons.mpr ⟨⟨t, List.mem_cons_self, he⟩, fun e' he' => ?_⟩
    obtain ⟨t', ht', hcompile⟩ := ih hes' e' he'
    exact ⟨t', List.mem_cons_of_mem _ ht', hcompile⟩

/-- A call that needs two arguments has them. -/
theorem exists_of_variadic_eq_ok {ι : Type} {m : Model ι} {root : ι} {f : Builtin}
    {ts : List Term} {e : Expr} (h : variadic f ts.length (compileAll m root ts) = .ok e) :
    ∃ es, compileAll m root ts = .ok es ∧ 2 ≤ es.length ∧ e = .call f es := by
  unfold variadic at h
  split at h
  next => cases h
  next hcount =>
    obtain ⟨es, hes, he⟩ := exists_of_map_eq_ok h
    rw [← length_compileAll hes] at hcount
    exact ⟨es, hes, Nat.le_of_not_lt hcount, he.symm⟩

/-! ### Descriptions -/

/-- A description: the canonical text of the compiled term, or the error in angle brackets. -/
def describe {ι : Type} (m : Model ι) (root : ι) (t : Term) : String :=
  match t.compile m root with
  | .ok e => Inspect.call "Expr" [e.text]
  | .error err => Inspect.call "Expr" ["<" ++ err.message ++ ">"]

end Term

end LiveQuery
