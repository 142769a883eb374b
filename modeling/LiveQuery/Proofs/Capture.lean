import LiveQuery.Proofs.Qualifiers

/-!
# Captured names

A qualifier refers to the row of the table that goes by it in the innermost FROM clause that has
one.  (The engine passes such a table over if it lacks the column, which is left aside here.)  A
column of an expression is meant to be read from the row of the innermost join to its table
that it stands in, and from the row of a root table if there is none.

A column with an alias refers to what is meant, as no two aliases have the same number.  A column
without one may be captured: aliases and tables share their names, and nothing keeps a table from
having the name of an alias, such as `A#1`.  If a join around such a column goes by the name of the
column's table, the column refers to the row of this join.

## Main definitions

* `Scopes.refer?`, `Statement.references`: what the columns of a text refer to.
* `Reference.meant?`, `Statement.meant`: what the columns of a statement are meant to refer to.
* `Occurrence.Captured`: a column without an alias, inside a join that goes by the name of its
  table.

## Main results

* `Statement.references_eq_meant_iff`: columns refer to what is meant unless one is captured.
* `Statement.not_captured`: tables without the sign of aliases in their names are safe.
-/

namespace LiveQuery

/-! ### References -/

/-- The row that a column is read from: the current one of a table in a FROM clause that has some
number of clauses around it. -/
structure Reference where
  /-- The table. -/
  table : String
  /-- How many clauses are around that of the table. -/
  depth : Nat
deriving DecidableEq, Repr

/-- What a qualifier refers to under some FROM clauses, innermost first.  Names are compared as the
engine compares them. -/
def Scopes.refer? (qualifier : String) : List Scopes → Option Reference
  | [] => none
  | clause :: outer =>
    match clause.find? fun s => Catalog.key s.2 == Catalog.key qualifier with
    | some s => some ⟨s.1, outer.length⟩
    | none => refer? qualifier outer

/-- What a column of a table is meant to refer to inside joins to some tables, innermost first. -/
def Reference.meant? (roots : List String) (table : String) : List String → Option Reference
  | [] => if table ∈ roots then some ⟨table, 0⟩ else none
  | u :: outer => if u = table then some ⟨u, outer.length + 1⟩ else meant? roots table outer

/-- A column without an alias is written in a join that goes by the name of its table. -/
def Occurrence.Captured (o : Occurrence) (w : Written) : Prop :=
  o.column.table ∉ o.inScope o.around ∧
    ∃ s ∈ w.clauses.flatten, Catalog.key s.2 = Catalog.key o.column.table

instance (o : Occurrence) (w : Written) : Decidable (o.Captured w) :=
  inferInstanceAs (Decidable (_ ∧ _))

namespace Statement

/-- What the columns of a statement refer to in its text. -/
def references (s : Statement) : List (Option Reference) :=
  s.outline.columns.map fun w => Scopes.refer? w.qualifier (w.clauses ++ [s.outline.sources])

/-- What the columns of a statement are meant to refer to. -/
def meant (s : Statement) : List (Option Reference) :=
  s.occurrences.map fun o => Reference.meant? s.roots o.column.table (o.inScope o.around)

/-- The columns of a statement in the order of its text, and how they are written. -/
def written (s : Statement) : List (Occurrence × Written) := s.occurrences.zip s.outline.columns

/-- The names of root tables differ by more than case from those of the tables of columns. -/
def RootsApart (s : Statement) : Prop :=
  ∀ t ∈ s.roots, ∀ o ∈ s.occurrences, Catalog.key t = Catalog.key o.column.table →
    t = o.column.table

instance (s : Statement) : Decidable s.RootsApart :=
  inferInstanceAs (Decidable (∀ _ ∈ _, ∀ _ ∈ _, _ → _))

end Statement

/-! ### Clauses around a column -/

namespace Scopes

variable {scopes inside outside : Scopes} {q t a : String} {rest : List Scopes}

/-- Joins that go by other names are passed over. -/
theorem refer?_of_ne (h : ∀ s ∈ scopes, Catalog.key s.2 ≠ Catalog.key q) :
    refer? q (scopes.map ([·]) ++ rest) = refer? q rest := by
  induction scopes with
  | nil => rfl
  | cons s scopes ih =>
    have hs := h s List.mem_cons_self
    have hnone : ([s].find? fun s => Catalog.key s.2 == Catalog.key q) = none := by
      simpa using hs
    rw [List.map_cons, List.cons_append, refer?, hnone]
    exact ih fun s' hs' => h s' (List.mem_cons_of_mem _ hs')

/-- The innermost join that goes by the name is found. -/
theorem refer?_of_key (hinside : ∀ s ∈ inside, Catalog.key s.2 ≠ Catalog.key q)
    (ha : Catalog.key a = Catalog.key q) :
    refer? q ((inside ++ (t, a) :: outside).map ([·]) ++ rest) =
      some ⟨t, outside.length + rest.length⟩ := by
  have hsome : ([(t, a)].find? fun s => Catalog.key s.2 == Catalog.key q) = some (t, a) := by
    simpa using ha
  rw [List.map_append, List.append_assoc, refer?_of_ne hinside, List.map_cons, List.cons_append,
    refer?, hsome]
  simp

/-- If some join goes by a name, one of them is the innermost. -/
theorem exists_innermost (h : ∃ s ∈ scopes, Catalog.key s.2 = Catalog.key q) :
    ∃ inside t a outside, scopes = inside ++ (t, a) :: outside ∧
      (∀ s ∈ inside, Catalog.key s.2 ≠ Catalog.key q) ∧ Catalog.key a = Catalog.key q := by
  have hsome : (scopes.find? fun s => Catalog.key s.2 == Catalog.key q).isSome := by
    simpa [List.find?_isSome] using h
  obtain ⟨⟨t, a⟩, hfind⟩ := Option.isSome_iff_exists.mp hsome
  obtain ⟨ha, inside, outside, hscopes, hinside⟩ := List.find?_eq_some_iff_append.mp hfind
  refine ⟨inside, t, a, outside, hscopes, fun s hs => ?_, beq_iff_eq.mp ha⟩
  simpa using hinside s hs

/-- Below all joins, a table of the statement itself is found by its name. -/
theorem refer?_roots {roots : List String}
    (hapart : ∀ u ∈ roots, Catalog.key u = Catalog.key t → u = t) :
    refer? t [roots.map fun t => (t, t)] = if t ∈ roots then some ⟨t, 0⟩ else none := by
  rw [refer?]
  cases hfind : (roots.map fun t => (t, t)).find? fun s => Catalog.key s.2 == Catalog.key t with
  | none =>
    have hnone := List.find?_eq_none.mp hfind
    rw [if_neg fun ht => hnone (t, t) (List.mem_map_of_mem ht) (beq_self_eq_true _)]
    rfl
  | some s =>
    obtain ⟨u, hu, rfl⟩ := List.mem_map.mp (List.mem_of_find?_eq_some hfind)
    have hkey := List.find?_some hfind
    obtain rfl : u = t := hapart u hu (beq_iff_eq.mp hkey)
    rw [if_pos hu]
    rfl

theorem Numbered.number {n : Nat} (h : Numbered n scopes) :
    ∀ s ∈ scopes, ∃ u k, k ≤ n ∧ s.2 = joinAlias u k := by
  induction h with
  | nil n => simp
  | @join n k m scopes t h hnew hlast ih =>
    refine List.forall_mem_cons.mpr ⟨⟨t, k, hlast, rfl⟩, fun s hs => ?_⟩
    obtain ⟨u, j, hj, hs⟩ := ih s hs
    exact ⟨u, j, by omega, hs⟩

/-- Aliases with numbers of their own are different names. -/
theorem Numbered.pairwise {n : Nat} (h : Numbered n scopes) :
    scopes.Pairwise fun s s' => Catalog.key s.2 ≠ Catalog.key s'.2 := by
  induction h with
  | nil n => exact .nil
  | @join n k m scopes t h hnew hlast ih =>
    refine List.pairwise_cons.mpr ⟨fun s hs he => ?_, ih⟩
    obtain ⟨u, j, hj, hs⟩ := h.number s hs
    have hkj : k = j := Catalog.number_of_key_joinAlias (hs ▸ he)
    omega

end Scopes

namespace Reference

variable {roots inside outside : List String} {t : String}

theorem meant?_of_notMem {around : List String} (h : t ∉ around) :
    meant? roots t around = if t ∈ roots then some ⟨t, 0⟩ else none := by
  induction around with
  | nil => rfl
  | cons u around ih =>
    obtain ⟨hu, haround⟩ := not_or.mp (mt List.mem_cons.mpr h)
    rw [meant?, if_neg (Ne.symm hu), ih haround]

theorem meant?_of_split (h : t ∉ inside) :
    meant? roots t (inside ++ t :: outside) = some ⟨t, outside.length + 1⟩ := by
  induction inside with
  | nil => rw [List.nil_append, meant?, if_pos rfl]
  | cons u inside ih =>
    obtain ⟨hu, hinside⟩ := not_or.mp (mt List.mem_cons.mpr h)
    rw [List.cons_append, meant?, if_neg (Ne.symm hu), ih hinside]

end Reference

/-! ### Columns -/

section Column

variable {n : Nat} {scopes : Scopes} {o : Occurrence} {w : Written} {roots : List String}

/-- The joins that count for a column are the outer ones of those that it is written in. -/
theorem Occurrence.inScope_suffix {α : Type} (o : Occurrence) (around : List α) :
    o.inScope around <:+ around := by
  unfold inScope
  split
  · exact List.tail_suffix around
  · exact List.suffix_refl around

theorem Scopes.Writes.flatten_clauses (h : scopes.Writes o w) : w.clauses.flatten = scopes := by
  rw [h.clauses, ← List.flatMap_def, List.flatMap_singleton']

/-- **A column refers to what is meant unless it is captured.**  With an alias it does: the join
with this alias is the innermost one to the table, and it is the only one of the name.  Without one
it does if no join has the name of the table. -/
theorem Scopes.Writes.refer?_eq_meant?_iff (h : scopes.Writes o w) (hnumbered : scopes.Numbered n)
    (hapart : ∀ t ∈ roots, Catalog.key t = Catalog.key o.column.table → t = o.column.table) :
    Scopes.refer? w.qualifier (w.clauses ++ [roots.map fun t => (t, t)]) =
        Reference.meant? roots o.column.table (o.inScope o.around) ↔ ¬ o.Captured w := by
  have haround : o.inScope o.around = (o.inScope scopes).map Prod.fst := by
    rw [h.around, o.inScope_map]
  rw [Occurrence.Captured, h.flatten_clauses, h.qualifier, h.clauses]
  rcases Scopes.qualifies_qualifier (o.inScope scopes) o.column.table with
    ⟨inside, outside, hsplit, hinside⟩ | ⟨hname, hother⟩
  · generalize Scopes.qualifier (o.inScope scopes) o.column.table = a at hsplit ⊢
    obtain ⟨before, hbefore⟩ := o.inScope_suffix scopes
    have hscopes : scopes = (before ++ inside) ++ (o.column.table, a) :: outside := by
      rw [← hbefore, hsplit, List.append_assoc]
    have hkey : ∀ s ∈ before ++ inside, Catalog.key s.2 ≠ Catalog.key a := fun s hs =>
      (List.pairwise_append.mp (hscopes ▸ hnumbered.pairwise)).2.2 s hs _ List.mem_cons_self
    have ht : o.column.table ∉ inside.map Prod.fst := by
      intro hmem
      obtain ⟨s, hs, hst⟩ := List.mem_map.mp hmem
      exact hinside s hs hst
    rw [haround, hsplit, List.map_append, List.map_cons, Reference.meant?_of_split ht, hscopes,
      Scopes.refer?_of_key hkey rfl]
    simp
  · have ht : o.column.table ∉ o.inScope o.around := by
      rw [haround]
      intro hmem
      obtain ⟨s, hs, hst⟩ := List.mem_map.mp hmem
      exact hother s hs hst
    rw [hname, Reference.meant?_of_notMem ht]
    by_cases hcaptured : ∃ s ∈ scopes, Catalog.key s.2 = Catalog.key o.column.table
    · obtain ⟨inside, u, a, outside, rfl, hinside, ha⟩ := Scopes.exists_innermost hcaptured
      rw [Scopes.refer?_of_key hinside ha]
      refine iff_of_false (fun he => ?_) (not_not_intro ⟨ht, hcaptured⟩)
      split at he
      next => simpa using congrArg (Option.map Reference.depth) he
      next => cases he
    · have hne : ∀ s ∈ scopes, Catalog.key s.2 ≠ Catalog.key o.column.table := fun s hs he =>
        hcaptured ⟨s, hs, he⟩
      rw [Scopes.refer?_of_ne hne, Scopes.refer?_roots hapart]
      exact iff_of_true rfl fun h => hcaptured h.2

end Column

/-! ### Statements -/

/-- Lists with related elements are mapped to the same list exactly if their elements are. -/
theorem map_eq_map_iff_of_rel {α β γ : Type} {R : α → β → Prop} {f : α → γ} {g : β → γ}
    {P : α × β → Prop} {as : List α} {bs : List β} (h : List.Forall₂ R as bs)
    (hP : ∀ a ∈ as, ∀ b, R a b → (g b = f a ↔ P (a, b))) :
    bs.map g = as.map f ↔ ∀ p ∈ as.zip bs, P p := by
  induction h with
  | nil => simp
  | @cons a b as bs hab h ih =>
    have hhead := hP a List.mem_cons_self b hab
    have hrest := ih fun a ha => hP a (List.mem_cons_of_mem _ ha)
    rw [List.map_cons, List.map_cons, List.cons.injEq, List.zip_cons_cons, List.forall_mem_cons,
      hhead, hrest]

namespace Statement

/-- Columns are not captured if their tables do not have the sign of aliases in their names. -/
theorem not_captured {s : Statement}
    (hplain : ∀ o ∈ s.occurrences, '#' ∉ o.column.table.toList) :
    ∀ p ∈ s.written, ¬ p.1.Captured p.2 := by
  rintro ⟨o, w⟩ hp ⟨-, a, ha, hkey⟩
  obtain ⟨n, scopes, hnumbered, hwrites⟩ := (List.forall₂_iff_zip.mp s.occurrences_placed).2 hp
  rw [hwrites.flatten_clauses] at ha
  obtain ⟨u, k, -, hname⟩ := hnumbered.number a ha
  refine hplain o (List.of_mem_zip hp).1 (Catalog.hash_mem_key.mp ?_)
  rw [← hkey, hname]
  exact Catalog.hash_mem_key.mpr (Catalog.hash_mem_joinAlias u k)

/-- **References.**  The columns of a statement refer to the rows that they are meant to exactly if
none of them is captured. -/
theorem references_eq_meant_iff (s : Statement) (hapart : s.RootsApart) :
    s.references = s.meant ↔ ∀ p ∈ s.written, ¬ p.1.Captured p.2 := by
  refine map_eq_map_iff_of_rel s.occurrences_placed fun o ho w hplaced => ?_
  obtain ⟨n, scopes, hnumbered, hwrites⟩ := hplaced
  have hsources : s.outline.sources = s.roots.map fun t => (t, t) := by rw [outline_eq]
  rw [hsources]
  exact hwrites.refer?_eq_meant?_iff hnumbered fun t ht => hapart t ht o ho

end Statement

/-! ### A table with the name of an alias -/

namespace Hashed

/-- A table `A` with two rows and a table `A#1` with a row that refers to the second of them. -/
def database : Database where
  tables := .ofList
    [("a", ⟨"A", [⟨"id", "INTEGER", false, 1⟩, ⟨"name", "TEXT", true, 0⟩,
          ⟨"x", "INTEGER", true, 0⟩],
        .ofList [(1, .ofList [("id", .integer 1), ("name", .text [65]), ("x", .integer 1)]),
          (2, .ofList [("id", .integer 2), ("name", .text [66]), ("x", .null)])], "", 2⟩),
      ("a#1", ⟨"A#1", [⟨"id", "INTEGER", false, 1⟩, ⟨"x", "INTEGER", true, 0⟩],
        .ofList [(1, .ofList [("id", .integer 1), ("x", .integer 2)])], "", 3⟩)]
  keyed := by decide

/-- The name of the row that is referred to. -/
def name : Query where
  results := [⟨.join ⟨"A#1", "x"⟩ ⟨"A", "id"⟩ (.column ⟨"A", "name"⟩), some "name"⟩]
  predicates := []
  order := []

/-- A column is captured, so not all columns refer to what is meant. -/
theorem references_ne_meant : (Statement.query name).RootsApart ∧
    (Statement.query name).references ≠ (Statement.query name).meant := by
  have hapart : (Statement.query name).RootsApart := by decide +kernel
  refine ⟨hapart, fun he => ?_⟩
  have hnone := ((Statement.query name).references_eq_meant_iff hapart).mp he
  revert hnone
  decide +kernel

/-- The alias of the join is the name of the table outside, and the join finds a row that refers to
itself instead of the row that is referred to. -/
theorem run_ne_answer :
    ("A", "A#1") ∈ (Statement.query name).outline.rows ∧ "A#1" ∈ name.rootTables ∧
      database.run (.ofInt 1) name = .ok [[.text "A"]] ∧
      name.answer database (.ofInt 1) = {[.text "B"]} := by
  refine ⟨by decide +kernel, SortedSet.contains_eq_true_iff.mp (by decide +kernel),
    by decide +kernel, by decide +kernel⟩

end Hashed

end LiveQuery
