import LiveQuery.Engine.Select

/-!
# Faults of queries

What is wrong with a query is found out from the schema alone: two databases with the same tables
report the same fault, whatever rows the tables hold.  A query that runs in one of them therefore
runs in the other.

The checks walk over a query with the tables in scope.  Everything they ask of a scope is answered
by its tables without their rows (`Scope.bare`), so each walk is shown to give the same on scopes
that are the same without rows; a join extends both scopes alike.

## Main definitions

* `Database.SameSchema`: the same tables, up to their rows.
* `Scope.bare`: a scope without the rows of its tables.

## Main results

* `Expr.levels_congr`, `Expr.aggregateCalls_congr`, `Expr.resolve_congr`: the walks.
* `Query.fault?_congr`: the fault of a query depends on the schema only.
-/

namespace LiveQuery

/-! ### Tables without rows -/

/-- The table without its rows. -/
def Table.bare (t : Table) : Table := { t with rows := .empty }

/-- The table of a clause without its rows. -/
def Source.bare {ρ : Type} (s : Source ρ) : Source ρ := { s with table := s.table.bare }

/-- A scope without the rows of its tables. -/
def Scope.bare {ρ : Type} (scope : Scope ρ) : Scope ρ :=
  scope.map fun clause => clause.map Source.bare

/-- A result of a look-up without the rows of the table that was found. -/
def Lookup.bare {ρ : Type} : Lookup ρ → Lookup ρ
  | found level s cell => found level s.bare cell
  | ambiguous => ambiguous
  | missing => missing

/-- Two databases have the same tables, up to the rows of the tables. -/
def Database.SameSchema (db db' : Database) : Prop :=
  ∀ n, (db.table? n).map Table.bare = (db'.table? n).map Table.bare

namespace Database.SameSchema

variable {db db' : Database}

theorem refl (db : Database) : db.SameSchema db := fun _ => rfl

theorem trans {db'' : Database} (h : db.SameSchema db') (h' : db'.SameSchema db'') :
    db.SameSchema db'' := fun n => (h n).trans (h' n)

theorem isSome (h : db.SameSchema db') (n : String) :
    (db.table? n).isSome = (db'.table? n).isSome := by
  simpa using congrArg Option.isSome (h n)

theorem source (h : db.SameSchema db') (name table : String) :
    (db.source name table).map Source.bare = (db'.source name table).map Source.bare := by
  have hlist : ∀ o : Option Table, (o.toList.map fun t => (⟨name, t, ()⟩ : Source Unit)).map
      Source.bare = (o.map Table.bare).toList.map fun t => ⟨name, t, ()⟩ := by
    rintro (_ | t) <;> rfl
  rw [Database.source, Database.source, hlist, hlist, h table]

/-- A join extends scopes alike. -/
theorem scope_cons (h : db.SameSchema db') (name table : String) {scope scope' : Scope Unit}
    (hs : scope.bare = scope'.bare) :
    Scope.bare (db.source name table :: scope) = Scope.bare (db'.source name table :: scope') := by
  rw [Scope.bare, Scope.bare, List.map_cons, List.map_cons, h.source name table]
  exact congrArg _ hs

end Database.SameSchema

/-! ### Look-up -/

namespace Scope

variable {ρ : Type}

theorem findIn_bare (level : Nat) (clause : List (Source ρ)) (qualifier name : String) :
    findIn level (clause.map Source.bare) qualifier name =
      (findIn level clause qualifier name).bare := by
  have hnamed : ((clause.map Source.bare).filter fun s => Catalog.key s.name ==
      Catalog.key qualifier) = (clause.filter fun s => Catalog.key s.name ==
      Catalog.key qualifier).map Source.bare := by
    rw [List.filter_map]
    rfl
  have hhits : ∀ named : List (Source ρ), ((named.map Source.bare).filterMap fun s =>
      (s.table.column? name).map fun c => (s, c)) = (named.filterMap fun s =>
      (s.table.column? name).map fun c => (s, c)).map fun hit => (hit.1.bare, hit.2) := by
    intro named
    rw [List.filterMap_map, List.map_filterMap]
    congr 1
    funext s
    change (s.table.column? name).map (fun c => (s.bare, c)) = _
    cases s.table.column? name <;> rfl
  unfold findIn
  simp only [hnamed, hhits]
  generalize clause.filter _ = named
  generalize named.filterMap _ = hits
  rcases hits with _ | ⟨⟨s, c⟩, _ | ⟨hit, hits⟩⟩
  · by_cases hname : isRowNumberName name = true
    · rcases named with _ | ⟨s, _ | ⟨s', named⟩⟩ <;> simp [hname, Lookup.bare]
    · simp [hname, Lookup.bare]
  · rfl
  · rfl

theorem findFrom_bare (qualifier name : String) (level : Nat) (scope : Scope ρ) :
    findFrom qualifier name level scope.bare = (findFrom qualifier name level scope).bare := by
  induction scope generalizing level with
  | nil => rfl
  | cons clause outer ih =>
    change findFrom qualifier name level (clause.map Source.bare :: Scope.bare outer) = _
    rw [findFrom, findFrom, findIn_bare, ih]
    cases findIn level clause qualifier name <;> rfl

variable {scope scope' : Scope ρ}

theorem find_congr (h : scope.bare = scope'.bare) (qualifier name : String) :
    (scope.find qualifier name).bare = (scope'.find qualifier name).bare := by
  rw [find, find, ← findFrom_bare, h, findFrom_bare]

theorem level?_congr (h : scope.bare = scope'.bare) (qualifier name : String) :
    scope.level? qualifier name = scope'.level? qualifier name := by
  have hfind := find_congr h qualifier name
  unfold level?
  revert hfind
  cases scope.find qualifier name <;> cases scope'.find qualifier name <;> intro hfind <;>
    simp_all [Lookup.bare]

end Scope

theorem Checker.column_congr (db db' : Database) {place : Nat → TextPlace}
    {scope scope' : Scope Unit} (h : scope.bare = scope'.bare) (index : Nat)
    (qualifier name : String) :
    Checker.column ⟨db, place⟩ scope index qualifier name =
      Checker.column ⟨db', place⟩ scope' index qualifier name := by
  have hfind := Scope.find_congr h qualifier name
  funext f
  unfold column
  revert hfind
  cases scope.find qualifier name <;> cases scope'.find qualifier name <;> intro hfind <;>
    simp_all [Lookup.bare]

/-! ### Walks over expressions -/

namespace Expr

variable {db db' : Database}

mutual

theorem levels_congr (h : db.SameSchema db') (scopes : Scopes) (n : Nat)
    {scope scope' : Scope Unit} (hs : scope.bare = scope'.bare) :
    (e : Expr) → levels db scopes n scope e = levels db' scopes n scope' e
  | value _ => rfl
  | column c => by rw [levels, levels, Scope.level?_congr hs]
  | unary _ e => by rw [levels, levels, levels_congr h scopes n hs e]
  | binary _ l r => by
    rw [levels, levels, levels_congr h scopes n hs l, levels_congr h scopes _ hs r]
  | call f args => by cases f <;> simp only [levels, levelsAll_congr h scopes n hs args]
  | join source target inner => by
    have hin := h.scope_cons (joinAlias target.table (n + 1)) target.table hs
    simp only [levels, levels_congr h _ _ hin inner, Scope.level?_congr hin]

theorem levelsAll_congr (h : db.SameSchema db') (scopes : Scopes) (n : Nat)
    {scope scope' : Scope Unit} (hs : scope.bare = scope'.bare) :
    (es : List Expr) → levelsAll db scopes n scope es = levelsAll db' scopes n scope' es
  | [] => rfl
  | e :: es => by
    rw [levelsAll, levelsAll, levels_congr h scopes n hs e, levelsAll_congr h scopes _ hs es]

end

theorem ownLevel_congr (h : db.SameSchema db') (scopes : Scopes) (n : Nat)
    {scope scope' : Scope Unit} (hs : scope.bare = scope'.bare) (args : List Expr) :
    ownLevel db scopes n scope args = ownLevel db' scopes n scope' args := by
  rw [ownLevel, ownLevel, levelsAll_congr h scopes n hs]

mutual

theorem aggregateCalls_congr (h : db.SameSchema db') (scopes : Scopes) (n index : Nat)
    {scope scope' : Scope Unit} (hs : scope.bare = scope'.bare) :
    (e : Expr) → aggregateCalls db scopes n index scope e =
      aggregateCalls db' scopes n index scope' e
  | value _ => rfl
  | column _ => rfl
  | unary op e => by
    rw [aggregateCalls, aggregateCalls, aggregateCalls_congr h scopes n _ hs e]
  | binary op l r => by
    simp only [aggregateCalls, aggregateCalls_congr h scopes _ _ hs l,
      aggregateCalls_congr h scopes _ _ hs r]
  | call f args => by
    cases f <;> simp only [aggregateCalls, aggregateCallsAll_congr h scopes n _ hs args,
      ownLevel_congr h scopes n hs args]
  | join source target inner => by
    have hin := h.scope_cons (joinAlias target.table (n + 1)) target.table hs
    simp only [aggregateCalls, aggregateCalls_congr h _ _ _ hin inner]

theorem aggregateCallsAll_congr (h : db.SameSchema db') (scopes : Scopes) (n index : Nat)
    {scope scope' : Scope Unit} (hs : scope.bare = scope'.bare) :
    (es : List Expr) → aggregateCallsAll db scopes n index scope es =
      aggregateCallsAll db' scopes n index scope' es
  | [] => rfl
  | e :: es => by
    rw [aggregateCallsAll, aggregateCallsAll, aggregateCalls_congr h scopes n _ hs e,
      aggregateCallsAll_congr h scopes _ _ hs es]

end

theorem isAggregate_congr (h : db.SameSchema db') (scopes : Scopes) (n : Nat)
    {scope scope' : Scope Unit} (hs : scope.bare = scope'.bare) (e : Expr) :
    e.isAggregate db scopes n scope = e.isAggregate db' scopes n scope' := by
  rw [isAggregate, isAggregate, aggregateCalls_congr h scopes n 0 hs]

theorem locate_congr (h : db.SameSchema db') (place : Nat → TextPlace) (f : Findings)
    (tables : List String) :
    Checker.locate ⟨db, place⟩ f tables = Checker.locate ⟨db', place⟩ f tables := by
  induction tables with
  | nil => rfl
  | cons t rest ih => rw [Checker.locate, Checker.locate, ih, h.isSome t]

mutual

theorem resolve_congr (h : db.SameSchema db') (place : Nat → TextPlace) (located : Bool)
    (scopes : Scopes) (n index : Nat) {scope scope' : Scope Unit} (hs : scope.bare = scope'.bare)
    (allowed : Bool) : (e : Expr) →
    resolve ⟨db, place⟩ located scopes n index scope allowed e =
      resolve ⟨db', place⟩ located scopes n index scope' allowed e
  | value _ => rfl
  | column c => by
    funext f
    rw [resolve, resolve, Checker.column_congr db db' hs]
  | unary op e => by
    funext f
    simp only [resolve, resolve_congr h place located scopes _ _ hs allowed e]
  | binary op l r => by
    funext f
    simp only [resolve, resolve_congr h place located scopes _ _ hs allowed l,
      resolve_congr h place located scopes _ _ hs allowed r]
  | call fn args => by
    funext f
    cases fn <;> simp only [resolve, Checker.function,
      resolveAll_congr h place located scopes _ _ hs _ args]
  | join source target inner => by
    have hin := h.scope_cons (joinAlias target.table (n + 1)) target.table hs
    funext f
    simp only [resolve, resolve_congr h place true _ _ _ hin true inner,
      Checker.column_congr db db' hin, Checker.locateJoin, locate_congr h]

theorem resolveAll_congr (h : db.SameSchema db') (place : Nat → TextPlace) (located : Bool)
    (scopes : Scopes) (n index : Nat) {scope scope' : Scope Unit} (hs : scope.bare = scope'.bare)
    (allowed : Bool) : (es : List Expr) →
    resolveAll ⟨db, place⟩ located scopes n index scope allowed es =
      resolveAll ⟨db', place⟩ located scopes n index scope' allowed es
  | [] => rfl
  | e :: es => by
    funext f
    rw [resolveAll, resolveAll, resolve_congr h place located scopes _ _ hs allowed e,
      resolveAll_congr h place located scopes _ _ hs allowed es]

end

end Expr

/-! ### Queries -/

namespace Checker

variable {db db' : Database} {place : Nat → TextPlace} {scope scope' : Scope Unit}

theorem sites_congr (h : db.SameSchema db') (hs : scope.bare = scope'.bare) (located allowed : Bool)
    (sites : List Site) :
    Checker.sites ⟨db, place⟩ located scope allowed sites =
      Checker.sites ⟨db', place⟩ located scope' allowed sites := by
  induction sites with
  | nil => rfl
  | cons s rest ih =>
    funext f
    rw [sites, sites, ih, site, site, Expr.resolve_congr h place located _ _ _ hs]

theorem conditions_congr (h : db.SameSchema db') (hs : scope.bare = scope'.bare)
    (located allowed : Bool) (sites : List Site) :
    Checker.conditions ⟨db, place⟩ located scope allowed sites =
      Checker.conditions ⟨db', place⟩ located scope' allowed sites := by
  funext f
  cases sites with
  | nil => rfl
  | cons first rest =>
    simp only [conditions, Expr.resolveAll_congr h place located _ _ _ hs]

theorem misuses_congr (h : db.SameSchema db') (hs : scope.bare = scope'.bare) (aggregated : Bool)
    (sites : List Site) :
    Checker.misuses ⟨db, place⟩ scope aggregated sites =
      Checker.misuses ⟨db', place⟩ scope' aggregated sites := by
  simp only [misuses, Expr.aggregateCalls_congr h _ _ _ hs]

end Checker

namespace Query

variable {db db' : Database}

theorem scope_congr (h : db.SameSchema db') (q : Query) :
    (q.scope db).bare = (q.scope db').bare := by
  rw [scope, scope, Scope.bare, Scope.bare, List.map_singleton, List.map_singleton,
    List.map_flatMap, List.map_flatMap]
  simp only [h.source]

theorem isAggregate_congr (h : db.SameSchema db') (q : Query) :
    q.isAggregate db = q.isAggregate db' := by
  simp only [isAggregate, Expr.isAggregate_congr h _ _ (scope_congr h q)]

theorem length_scope_congr (h : db.SameSchema db') (q : Query) :
    (q.scope db).flatten.length = (q.scope db').flatten.length := by
  have hbare : ∀ scope : Scope Unit, scope.flatten.length = scope.bare.flatten.length := by
    intro scope
    rw [Scope.bare, ← List.map_flatten, List.length_map]
  rw [hbare (q.scope db), scope_congr h, ← hbare]

theorem resultCount_congr (h : db.SameSchema db') (q : Query) :
    q.resultCount db = q.resultCount db' := by
  have hbare : ∀ scope : Scope Unit, (scope.flatten.flatMap fun s => s.table.columns) =
      scope.bare.flatten.flatMap fun s => s.table.columns := by
    intro scope
    rw [Scope.bare, ← List.map_flatten, List.flatMap_map]
    rfl
  rw [resultCount, resultCount, hbare (q.scope db), scope_congr h, ← hbare]

theorem resolve_congr (h : db.SameSchema db') (place : Nat → TextPlace) (q : Query) :
    q.resolve ⟨db, place⟩ = q.resolve ⟨db', place⟩ := by
  have hs := scope_congr h q
  funext f
  simp only [resolve, locate, Expr.locate_congr h, resultCount_congr h, isAggregate_congr h,
    Checker.sites_congr h hs, Checker.conditions_congr h hs]

theorem planFault?_congr (h : db.SameSchema db') (place : Nat → TextPlace) (q : Query) :
    q.planFault? ⟨db, place⟩ = q.planFault? ⟨db', place⟩ := by
  have hs := scope_congr h q
  simp only [planFault?, length_scope_congr h, isAggregate_congr h, Checker.misuses_congr h hs,
    Checker.misuse?]

/-- **The fault of a query depends on the schema only.** -/
theorem fault?_congr (h : db.SameSchema db') (q : Query) : q.fault? db = q.fault? db' := by
  simp only [fault?, Checker.fault?, resolve_congr h, planFault?_congr h]

end Query

end LiveQuery
