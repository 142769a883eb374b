import LiveQuery.Model.Term
import LiveQuery.Statement.Render

/-!
# Requests

A request asks for rows of one entity: which terms to select and under which names, on which
conditions, and in which order.

## Main definitions

* `Selected`: a selected term, with a name or named by its text.
* `Request`: a request.
* `Request.compile`: the query of a request.
* `Request.terms`: the terms in it, from which the expressions of the query come.
* `deletion`: the action that removes rows of an entity.
-/

namespace LiveQuery

/-- A selected term. -/
structure Selected where
  /-- The name of the result; without one it is named by its canonical text. -/
  name : Option String
  /-- What is selected. -/
  term : Term

/-- A request for rows of one entity. -/
structure Request where
  /-- What is selected. -/
  selection : List Selected
  /-- The conditions, all of which have to hold. -/
  predicates : List Term
  /-- The sort keys, the first one deciding first. -/
  order : List (Term × Direction)

namespace Request

variable {ι : Type}

/-- The results of a selection, given the names of those before it.  An entry's own error comes
before a repetition of its name. -/
def compileSelection (m : Model ι) (root : ι) (taken : List String) :
    List Selected → Except CompileError (List ResultColumn)
  | [] => .ok []
  | s :: rest =>
    (s.term.compile m root).bind fun e =>
      let result : ResultColumn := ⟨e, s.name⟩
      if taken.contains result.name then .error (.duplicateResultName result.name)
      else (compileSelection m root (result.name :: taken) rest).map (result :: ·)

/-- The sort keys of an ordering. -/
def compileOrder (m : Model ι) (root : ι) :
    List (Term × Direction) → Except CompileError (List SortKey)
  | [] => .ok []
  | (t, d) :: rest =>
    (t.compile m root).bind fun e => (compileOrder m root rest).map (⟨e, d⟩ :: ·)

/-- The query of a request: the selection is compiled first, then the predicates, then the sort
keys. -/
def compile (m : Model ι) (root : ι) (r : Request) : Except CompileError Query :=
  (compileSelection m root [] r.selection).bind fun results =>
    (Term.compileAll m root r.predicates).bind fun predicates =>
      (compileOrder m root r.order).map fun order => ⟨results, predicates, order⟩

/-! ### Terms of a request -/

/-- All terms of a request. -/
def terms (r : Request) : List Term :=
  r.selection.map Selected.term ++ r.predicates ++ r.order.map Prod.fst

theorem exists_of_mem_compileSelection {m : Model ι} {root : ι} {selection : List Selected}
    {taken : List String} {results : List ResultColumn}
    (h : compileSelection m root taken selection = .ok results) :
    ∀ r ∈ results, ∃ s ∈ selection, s.term.compile m root = .ok r.expr := by
  induction selection generalizing taken results with
  | nil =>
    obtain rfl := Except.ok.inj h
    exact fun r hr => absurd hr List.not_mem_nil
  | cons s rest ih =>
    obtain ⟨e, he, hrest⟩ := exists_of_bind_eq_ok h
    dsimp only at hrest
    split at hrest
    next => cases hrest
    next =>
      obtain ⟨results', hresults', rfl⟩ := exists_of_map_eq_ok hrest
      refine List.forall_mem_cons.mpr ⟨⟨s, List.mem_cons_self, he⟩, fun r hr => ?_⟩
      obtain ⟨s', hs', hcompile⟩ := ih hresults' r hr
      exact ⟨s', List.mem_cons_of_mem _ hs', hcompile⟩

theorem exists_of_mem_compileOrder {m : Model ι} {root : ι} {keys : List (Term × Direction)}
    {order : List SortKey} (h : compileOrder m root keys = .ok order) :
    ∀ k ∈ order, ∃ key ∈ keys, key.1.compile m root = .ok k.expr := by
  induction keys generalizing order with
  | nil =>
    obtain rfl := Except.ok.inj h
    exact fun k hk => absurd hk List.not_mem_nil
  | cons key rest ih =>
    obtain ⟨e, he, hrest⟩ := exists_of_bind_eq_ok h
    obtain ⟨order', horder', rfl⟩ := exists_of_map_eq_ok hrest
    refine List.forall_mem_cons.mpr ⟨⟨key, List.mem_cons_self, he⟩, fun k hk => ?_⟩
    obtain ⟨key', hkey', hcompile⟩ := ih horder' k hk
    exact ⟨key', List.mem_cons_of_mem _ hkey', hcompile⟩

/-- Every expression of the query of a request comes from one of its terms. -/
theorem exists_of_mem_exprs {m : Model ι} {root : ι} {r : Request} {q : Query}
    (h : r.compile m root = .ok q) : ∀ e ∈ q.exprs, ∃ t ∈ r.terms, t.compile m root = .ok e := by
  obtain ⟨results, hresults, hrest⟩ := exists_of_bind_eq_ok h
  obtain ⟨predicates, hpredicates, hrest⟩ := exists_of_bind_eq_ok hrest
  obtain ⟨order, horder, rfl⟩ := exists_of_map_eq_ok hrest
  intro e he
  rcases List.mem_append.mp he with he | he
  · rcases List.mem_append.mp he with he | he
    · obtain ⟨c, hc, rfl⟩ := List.mem_map.mp he
      obtain ⟨s, hs, hcompile⟩ := exists_of_mem_compileSelection hresults c hc
      exact ⟨s.term, List.mem_append_left _ (List.mem_append_left _ (List.mem_map_of_mem hs)),
        hcompile⟩
    · obtain ⟨t, ht, hcompile⟩ := Term.exists_of_mem_compileAll hpredicates e he
      exact ⟨t, List.mem_append_left _ (List.mem_append_right _ ht), hcompile⟩
  · obtain ⟨k, hk, rfl⟩ := List.mem_map.mp he
    obtain ⟨key, hkey, hcompile⟩ := exists_of_mem_compileOrder horder k hk
    exact ⟨key.1, List.mem_append_right _ (List.mem_map_of_mem hkey), hcompile⟩

end Request

/-- The optional predicate of an action. -/
def compilePredicate {ι : Type} (m : Model ι) (root : ι) :
    Option Term → Except CompileError (Option Expr)
  | none => .ok none
  | some t => (t.compile m root).map some

/-- The action that removes the rows of an entity on which a predicate holds, or all of them. -/
def deletion {ι : Type} (m : Model ι) (root : ι) (predicate : Option Term) :
    Except CompileError Action :=
  (compilePredicate m root predicate).map (.delete (m root).name)

end LiveQuery
