import LiveQuery.Model.Request
import LiveQuery.Proofs.Paths
import LiveQuery.Proofs.Qualifiers

/-!
# Scopes of compiled terms

A term says along which path a property is found, and the expression it compiles to says of which
table every column is.  If these disagreed, a query would range over a second table, or a column
would be read from another row than that at the end of its path.

They agree because a join is only ever made together with the path behind it.  What a path reads
outside its first join is a column of the entity it starts from, and the inner expression of a join
is the rest of the path, compiled for the entity that the join leads to.  Expressions over columns
that are taken as they are (`Term.raw`) have no such discipline and are left out here.

## Main definitions

* `Expr.ScopedTo`: expressions on rows of one table.
* `Term.typed`, `Request.typed`: terms and requests in which no expression is taken as it is.
* `Occurrence.BoundIn`: a column with a qualifier that is introduced around it.

## Main results

* `Expr.ScopedTo.table_eq`: every column is one of the innermost join around it.
* `Term.scopedTo_of_compile`: a term compiles to an expression on rows of its entity.
* `Request.compile_scoped`: which table a request ranges over, and what its qualifiers refer to.
-/

namespace LiveQuery

/-! ### Scoped expressions -/

namespace Expr

/-- An expression that mentions a column takes a row from some table. -/
theorem exists_root {e : Expr} {c : Column} (h : c ∈ e.mentions) : ∃ t, t ∈ e.roots := by
  induction e using Expr.induct with
  | value v => cases h
  | column d => exact ⟨d.table, List.mem_cons_self⟩
  | unary op e ih => exact ih h
  | binary op l r ihl ihr =>
    rcases List.mem_append.mp h with h | h
    · obtain ⟨t, ht⟩ := ihl h
      exact ⟨t, List.mem_append_left _ ht⟩
    · obtain ⟨t, ht⟩ := ihr h
      exact ⟨t, List.mem_append_right _ ht⟩
  | call f args ih =>
    obtain ⟨e, he, hc⟩ := mem_mentionsAll.mp h
    obtain ⟨t, ht⟩ := ih e he hc
    exact ⟨t, mem_rootsAll.mpr ⟨e, he, ht⟩⟩
  | join source target inner ih => exact ⟨source.table, List.mem_cons_self⟩

/-- An expression on rows of the table `t`: columns outside joins are columns of `t`, a join leads
from `t` to another table whose rows its inner expression is on, and functions that take the
greatest or least of their arguments have two at least. -/
inductive ScopedTo : String → Expr → Prop
  | value (t : String) (v : Value) : ScopedTo t (value v)
  | column (c : Column) : ScopedTo c.table (column c)
  | unary {t : String} {e : Expr} (op : UnaryOp) (h : ScopedTo t e) : ScopedTo t (unary op e)
  | binary {t : String} {l r : Expr} (op : BinaryOp) (hl : ScopedTo t l) (hr : ScopedTo t r) :
      ScopedTo t (binary op l r)
  | call {t : String} {f : Builtin} {args : List Expr} (h : ∀ e ∈ args, ScopedTo t e)
      (hcount : f = .max ∨ f = .min → 2 ≤ args.length) : ScopedTo t (call f args)
  | join {target : Column} {inner : Expr} (source : Column) (h : ScopedTo target.table inner) :
      ScopedTo source.table (join source target inner)

namespace ScopedTo

variable {t : String} {e : Expr}

/-- Rows are only taken from the table itself. -/
theorem roots (h : e.ScopedTo t) : ∀ u ∈ e.roots, u = t := by
  induction h with
  | value t v => exact nofun
  | column c => exact fun u hu => List.mem_singleton.mp hu
  | unary op h ih => exact ih
  | binary op hl hr ihl ihr => exact fun u hu => (List.mem_append.mp hu).elim (ihl u) (ihr u)
  | call h hcount ih =>
    intro u hu
    obtain ⟨e, he, hu⟩ := mem_rootsAll.mp hu
    exact ih e he u hu
  | join source h ih => exact fun u hu => List.mem_singleton.mp hu

/-- **Every column is one of the innermost join around it**, or of the table itself if there is
none.  The source of a join does not stand in it.  The joins around the expression are general, as a
join is around its inner expression. -/
theorem table_eq (h : e.ScopedTo t) {root : String} : ∀ {around : List String},
    around.headD root = t →
      ∀ o ∈ e.occurrences around, o.column.table = (o.inScope o.around).headD root := by
  induction h with
  | value t v => exact fun _ => nofun
  | column c =>
    intro around hhead o ho
    obtain rfl := List.mem_singleton.mp ho
    exact hhead.symm
  | unary op h ih => exact ih
  | binary op hl hr ihl ihr =>
    exact fun hhead o ho => (List.mem_append.mp ho).elim (ihl hhead o) (ihr hhead o)
  | @call t f args h hcount ih =>
    intro around hhead o ho
    by_cases hf : f = .now
    · subst hf
      cases ho
    · rw [occurrences_call hf] at ho
      obtain ⟨e, he, ho⟩ := mem_occurrencesAll.mp ho
      exact ih e he hhead o ho
  | @join target inner source h ih =>
    intro around hhead o ho
    rcases List.mem_append.mp ho with ho | ho
    · have hinside : (target.table :: around).headD root = target.table := rfl
      exact ih hinside o ho
    · rcases List.mem_cons.mp ho with rfl | ho
      · rfl
      · obtain rfl := List.mem_singleton.mp ho
        exact hhead.symm

end ScopedTo

end Expr

/-! ### Terms -/

namespace KeyPath

variable {ι : Type} {m : Model ι}

/-- A path compiles to an expression on rows of the entity that it starts from. -/
theorem scopedTo_of_compile {path : KeyPath} {root : ι} {e : Expr}
    (h : path.compile m root = .ok e) : e.ScopedTo (m root).name := by
  induction path generalizing root e with
  | property name =>
    obtain ⟨p, -, -, rfl⟩ := compile_property_eq_ok h
    exact .column ⟨(m root).name, p.name⟩
  | through name rest ih =>
    obtain ⟨p, target, inner, id, -, -, hinner, -, rfl⟩ := compile_through_eq_ok h
    have hscoped : inner.ScopedTo (m target).name := ih hinner
    exact .join ⟨(m root).name, p.name⟩ hscoped

end KeyPath

namespace Term

mutual

/-- Whether a term takes no expression over columns as it is. -/
def typed : Term → Bool
  | path _ => true
  | literal _ => true
  | raw _ => false
  | unary _ t => typed t
  | binary _ l r => typed l && typed r
  | isIn t values => typed t && typedAll values
  | length t => typed t
  | coalesce t fallback => typed t && typed fallback
  | greatest args => typedAll args
  | least args => typedAll args
  | now => true

/-- Whether some terms are all so. -/
def typedAll : List Term → Bool
  | [] => true
  | t :: ts => typed t && typedAll ts

end

variable {ι : Type} {m : Model ι} {root : ι}

/-- A function that needs two arguments has them. -/
theorem scopedTo_of_variadic {f : Builtin} {ts : List Term} {e : Expr} {t : String}
    (h : variadic f ts.length (compileAll m root ts) = .ok e)
    (hall : ∀ es, compileAll m root ts = .ok es → ∀ e ∈ es, e.ScopedTo t) : e.ScopedTo t := by
  obtain ⟨es, hes, hcount, rfl⟩ := exists_of_variadic_eq_ok h
  exact .call (hall es hes) fun _ => hcount

mutual

/-- **A term compiles to an expression on rows of its entity.** -/
theorem scopedTo_of_compile : (t : Term) → t.typed = true → {e : Expr} →
    t.compile m root = .ok e → e.ScopedTo (m root).name
  | path p, _, _, h => KeyPath.scopedTo_of_compile h
  | literal v, _, _, h => by
    obtain rfl := Except.ok.inj h
    exact .value _ v
  | raw e, htyped, _, _ => by cases htyped
  | unary op t, htyped, _, h => by
    obtain ⟨e, he, rfl⟩ := exists_of_map_eq_ok h
    exact .unary op (scopedTo_of_compile t htyped he)
  | binary op l r, htyped, _, h => by
    obtain ⟨hl, hr⟩ := Bool.and_eq_true_iff.mp htyped
    obtain ⟨e, he, hrest⟩ := exists_of_bind_eq_ok h
    obtain ⟨e', he', rfl⟩ := exists_of_map_eq_ok hrest
    exact .binary op (scopedTo_of_compile l hl he) (scopedTo_of_compile r hr he')
  | isIn t values, htyped, _, h => by
    obtain ⟨ht, hvalues⟩ := Bool.and_eq_true_iff.mp htyped
    obtain ⟨e, he, hrest⟩ := exists_of_bind_eq_ok h
    obtain ⟨vs, hvs, rfl⟩ := exists_of_map_eq_ok hrest
    exact anyEqual_of (.value _ _) (fun op _ _ => .binary op) (scopedTo_of_compile t ht he)
      (scopedTo_of_compileAll values hvalues hvs)
  | length t, htyped, _, h => by
    obtain ⟨e, he, rfl⟩ := exists_of_map_eq_ok h
    refine .call (List.forall_mem_singleton.mpr ?_) (by simp)
    exact scopedTo_of_compile t htyped he
  | coalesce t fallback, htyped, _, h => by
    obtain ⟨ht, hfallback⟩ := Bool.and_eq_true_iff.mp htyped
    obtain ⟨e, he, hrest⟩ := exists_of_bind_eq_ok h
    obtain ⟨e', he', rfl⟩ := exists_of_map_eq_ok hrest
    refine .call (List.forall_mem_cons.mpr ⟨scopedTo_of_compile t ht he, ?_⟩) (by simp)
    exact List.forall_mem_singleton.mpr (scopedTo_of_compile fallback hfallback he')
  | greatest args, htyped, _, h =>
    scopedTo_of_variadic h fun _ => scopedTo_of_compileAll args htyped
  | least args, htyped, _, h =>
    scopedTo_of_variadic h fun _ => scopedTo_of_compileAll args htyped
  | now, _, _, h => by
    obtain rfl := Except.ok.inj h
    exact .call nofun (by simp)

theorem scopedTo_of_compileAll : (ts : List Term) → typedAll ts = true → {es : List Expr} →
    compileAll m root ts = .ok es → ∀ e ∈ es, e.ScopedTo (m root).name
  | [], _, _, h => by
    obtain rfl := Except.ok.inj h
    exact nofun
  | t :: ts, htyped, _, h => by
    obtain ⟨ht, hts⟩ := Bool.and_eq_true_iff.mp htyped
    obtain ⟨e, he, hrest⟩ := exists_of_bind_eq_ok h
    obtain ⟨es, hes, rfl⟩ := exists_of_map_eq_ok hrest
    exact List.forall_mem_cons.mpr
      ⟨scopedTo_of_compile t ht he, scopedTo_of_compileAll ts hts hes⟩

end

end Term

/-! ### Qualifiers -/

/-- A column of a text is qualified by a name from a FROM clause: that of a join that counts for it,
or the clause of the statement itself. -/
def Occurrence.BoundIn (sources : Scopes) (o : Occurrence) (w : Written) : Prop :=
  ∃ clause ∈ o.inScope w.clauses ++ [sources], w.qualifier ∈ clause.map Prod.snd

/-- A column of the innermost join that counts for it is qualified by the alias of this join, and a
column without one by its table. -/
theorem Scopes.Writes.boundIn {scopes sources : Scopes} {o : Occurrence} {w : Written}
    {root : String} (h : scopes.Writes o w)
    (htable : o.column.table = (o.inScope o.around).headD root)
    (hroot : (root, root) ∈ sources) : o.BoundIn sources w := by
  have hclauses : o.inScope w.clauses = (o.inScope scopes).map ([·]) := by
    rw [h.clauses, o.inScope_map]
  rw [h.around, o.inScope_map] at htable
  unfold Occurrence.BoundIn
  rw [hclauses, h.qualifier]
  cases hscope : o.inScope scopes with
  | nil =>
    rw [hscope] at htable
    refine ⟨sources, List.mem_append_right _ (List.mem_singleton_self _), ?_⟩
    rw [show o.column.table = root from htable]
    exact List.mem_map_of_mem hroot
  | cons s outer =>
    rw [hscope] at htable
    refine ⟨[s], List.mem_append_left _ List.mem_cons_self, ?_⟩
    rw [show o.column.table = s.1 from htable, Scopes.qualifier_cons_self]
    exact List.mem_singleton_self _

/-! ### Requests -/

namespace Request

variable {ι : Type} {m : Model ι} {root : ι} {r : Request} {q : Query}

/-- Whether a request takes no expression over columns as it is. -/
def typed (r : Request) : Bool := r.terms.all Term.typed

theorem scopedTo_of_compile (htyped : r.typed = true) (h : r.compile m root = .ok q) :
    ∀ e ∈ q.exprs, e.ScopedTo (m root).name := by
  intro e he
  obtain ⟨t, ht, hcompile⟩ := exists_of_mem_exprs h e he
  exact Term.scopedTo_of_compile t (List.all_eq_true.mp htyped t ht) hcompile

/-- A query on rows of one table that reads a column ranges over this table alone. -/
theorem rootTables_eq {t : String} {c : Column} (hscoped : ∀ e ∈ q.exprs, e.ScopedTo t)
    (hc : c ∈ q.columns) : q.rootTables = .ofList [t] := by
  obtain ⟨e, he, hmention⟩ := Query.mem_columns.mp hc
  obtain ⟨u, hu⟩ := Expr.exists_root (Expr.mem_columns.mp hmention)
  refine SortedSet.ext_mem fun x => ?_
  rw [Query.rootTables, SortedSet.mem_ofList, SortedSet.mem_ofList, List.mem_flatMap,
    List.mem_singleton]
  constructor
  · rintro ⟨e, he, hx⟩
    exact (hscoped e he).roots x hx
  · rintro rfl
    obtain rfl : u = x := (hscoped e he).roots u hu
    exact ⟨e, he, hu⟩

/-- **Compiled terms are scoped.**  A term compiles to an expression on rows of its entity.  So a
request whose query reads some column ranges over the table of its entity alone, and every qualifier
in the text of the query is the name of this table or the alias of a join around the column. -/
theorem compile_scoped (m : Model ι) (root : ι) :
    (∀ (t : Term) (e : Expr), t.typed = true → t.compile m root = .ok e →
        e.ScopedTo (m root).name) ∧
      ∀ (r : Request) (q : Query) (c : Column), r.typed = true → r.compile m root = .ok q →
        c ∈ q.columns → q.rootTables = .ofList [(m root).name] ∧
          (Statement.query q).outline.sources = [((m root).name, (m root).name)] ∧
          List.Forall₂ (Occurrence.BoundIn (Statement.query q).outline.sources)
            (Statement.query q).occurrences (Statement.query q).outline.columns := by
  refine ⟨fun t e htyped h => Term.scopedTo_of_compile t htyped h,
    fun r q c htyped h hc => ?_⟩
  have hscoped := scopedTo_of_compile htyped h
  have hroot := rootTables_eq hscoped hc
  have hsources :
      (Statement.query q).outline.sources = [((m root).name, (m root).name)] := by
    rw [Statement.outline_eq, Statement.roots, hroot]
    rfl
  refine ⟨hroot, hsources, ?_⟩
  rw [hsources]
  have hplaced := List.forall₂_iff_zip.mp (Statement.query q).occurrences_placed
  refine List.forall₂_iff_zip.mpr ⟨hplaced.1, fun ho => ?_⟩
  obtain ⟨n, scopes, -, hwrites⟩ := hplaced.2 ho
  obtain ⟨e, he, hoe⟩ := Expr.mem_occurrencesAll.mp (List.of_mem_zip ho).1
  exact hwrites.boundIn ((hscoped e he).table_eq rfl _ hoe) (List.mem_singleton_self _)

end Request

/-! ### People and the leaders of their companies -/

namespace Staff

/-- The names of those who lead the companies of people with a positive identifier. -/
def leaders : Request where
  selection := [⟨some "leader", .path leaderName⟩]
  predicates := [.binary .less (.literal (.integer 0))
    (.least [.path (.property "id"), .literal (.integer 1)])]
  order := []

/-- The query for them. -/
def leadersQuery : Query where
  results := [⟨leaderNameExpr, some "leader"⟩]
  predicates := [.binary .less (.value (.integer 0))
    (.call .min [.column ⟨"Person", "id"⟩, .value (.integer 1)])]
  order := []

theorem leadersQuery_scoped : leaderNameExpr.ScopedTo "Person" ∧
    leadersQuery.rootTables = .ofList ["Person"] ∧
      (Statement.query leadersQuery).outline.sources = [("Person", "Person")] ∧
      List.Forall₂ (Occurrence.BoundIn (Statement.query leadersQuery).outline.sources)
        (Statement.query leadersQuery).occurrences
        (Statement.query leadersQuery).outline.columns := by
  obtain ⟨hterm, hrequest⟩ := Request.compile_scoped model true
  have hcompile : leaders.compile model true = .ok leadersQuery := rfl
  have hcolumn : (⟨"Person", "id"⟩ : Column) ∈ leadersQuery.columns :=
    SortedSet.contains_eq_true_iff.mp (by decide +kernel)
  exact ⟨hterm (.path leaderName) leaderNameExpr rfl rfl,
    hrequest leaders leadersQuery _ rfl hcompile hcolumn⟩

end Staff

end LiveQuery
