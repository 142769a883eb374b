import LiveQuery.Proofs.Faults
import LiveQuery.Proofs.Rowwise
import LiveQuery.Engine.Execute

/-!
# What statements write

An action that is executed gives the rows of one table anew and leaves every other table as it was
(`Database.Rewrites`).  The tables stay the same up to their rows, also as listed by the catalogs,
so a query that could be run before can be run afterwards.

Within its table, an update changes rows one to one, each in the columns that are assigned.  The
row number is a column of its own, read under several names, and in a table whose only key column
is declared `INTEGER` it also stands in that column.  Every row that is written is written that way
(`Table.Numbered`), and updates rely on it: they write the number into the column of every row they
change.

## Main definitions

* `Database.Rewrites`: one table has new rows, and nothing else is different.
* `Table.Numbered`, `Database.Numbered`: row numbers stand in their columns.
* `Table.Keeps`, `Action.Spares`: names that an assignment leaves alone.

## Main results

* `Database.execute_rewrites`, `Database.execute_sameSchema`: the table of an action has new rows.
* `Database.execute_numbered`: row numbers stay in their columns.
* `Database.execute_agreesOn`: columns that an action leaves alone are as before.
-/

namespace LiveQuery

/-! ### One table anew -/

namespace Database

/-- The database differs in the rows of one table at most. -/
def Rewrites (db : Database) (t : Table) (rows : SortedMap Int Cells) (db' : Database) : Prop :=
  ∀ n, db'.table? n =
    if Catalog.key n = Catalog.key t.name then some { t with rows } else db.table? n

variable {db db' : Database} {n : String} {t : Table} {rows : SortedMap Int Cells}

/-- A table that is not one of the engine's own is found under the key of its name. -/
theorem key_of_table? (ht : db.table? n = some t) (hown : isReadOnly t.name = false) :
    Catalog.key n = Catalog.key t.name ∧ db.tables.get? (Caseless.fold t.name) = some t := by
  obtain ⟨hmain', htemporary'⟩ := isReadOnly_eq_false_iff.mp hown
  have hmain : Catalog.key n ≠ "sqlite_master" := by
    intro hn
    simp only [table?, hn, if_true, Option.some.injEq] at ht
    subst ht
    have hkey : Catalog.key "sqlite_master" = "sqlite_master" := by decide +kernel
    exact hmain' hkey
  have htemporary : Catalog.key n ≠ "sqlite_temp_master" := by
    intro hn
    simp only [table?, hn] at ht
    obtain rfl := Option.some.inj ht
    have hkey : Catalog.key "sqlite_temp_master" = "sqlite_temp_master" := by decide +kernel
    exact htemporary' hkey
  simp only [table?, if_neg hmain, if_neg htemporary] at ht
  have hname : Caseless.fold t.name = Catalog.key n :=
    db.keyed (Catalog.key n, t) ((SortedMap.get?_eq_some_iff _ _ _).mp ht)
  rw [← hname] at ht
  refine ⟨?_, ht⟩
  rw [← hname, Catalog.key_eq_fold hmain' htemporary']

/-- Storing a table with new rows rewrites it: no catalog lists rows. -/
theorem rewrites_withTable (ht : db.table? n = some t) (hown : isReadOnly t.name = false)
    (rows : SortedMap Int Cells) : db.Rewrites t rows (db.withTable { t with rows }) := by
  obtain ⟨-, hget⟩ := key_of_table? ht hown
  obtain ⟨hmain, htemporary⟩ := isReadOnly_eq_false_iff.mp hown
  have hfold := Catalog.key_eq_fold hmain htemporary
  have hlisted : (db.withTable { t with rows }).tables.values.flatMap Catalog.rows =
      db.tables.values.flatMap Catalog.rows := by
    have hmap : ((db.withTable { t with rows }).tables.toList.map fun e => Catalog.rows e.2) =
        db.tables.toList.map fun e => Catalog.rows e.2 :=
      SortedMap.map_toList_insert ((SortedMap.get?_eq_some_iff _ _ _).mp hget) _ rfl
    simp only [SortedMap.values, List.flatMap_def, List.map_map]
    exact congrArg List.flatten hmap
  intro m
  simp only [table?, Catalog.table, hlisted]
  by_cases hm : Catalog.key m = Catalog.key t.name
  · rw [if_neg (hm ▸ hmain), if_neg (hm ▸ htemporary), if_pos hm, hm, hfold]
    simp [withTable]
  · rw [if_neg hm]
    have hne : Catalog.key m ≠ Caseless.fold t.name := hfold ▸ hm
    simp [withTable, hne]

namespace Rewrites

/-- The rewritten table is found under the names under which it was found. -/
theorem table? (h : db.Rewrites t rows db') (hn : Catalog.key n = Catalog.key t.name) :
    db'.table? n = some { t with rows } := (h n).trans (if_pos hn)

theorem table?_of_ne (h : db.Rewrites t rows db') (hn : Catalog.key n ≠ Catalog.key t.name) :
    db'.table? n = db.table? n := (h n).trans (if_neg hn)

/-- Rewriting a table once more. -/
theorem again {rows' : SortedMap Int Cells} {db'' : Database} (h : db.Rewrites t rows db')
    (h' : db'.Rewrites { t with rows } rows' db'') : db.Rewrites t rows' db'' := by
  intro m
  by_cases hm : Catalog.key m = Catalog.key t.name
  · rw [if_pos hm]
    exact h'.table? hm
  · rw [if_neg hm, h'.table?_of_ne hm, h.table?_of_ne hm]

theorem sameSchema (h : db.Rewrites t rows db') (ht : db.table? n = some t)
    (hn : Catalog.key n = Catalog.key t.name) : db.SameSchema db' := by
  intro m
  by_cases hm : Catalog.key m = Catalog.key t.name
  · have hsame : db.table? m = db.table? n := by rw [Database.table?, Database.table?, hm, hn]
    rw [h.table? hm, hsame, ht]
    rfl
  · rw [h.table?_of_ne hm]

end Rewrites

/-! ### Executed actions -/

/-- An action is only executed on a table that is there and is not one of the engine's own. -/
theorem table_of_fault?_eq_none {a : Action} (h : a.fault? db = none) :
    ∃ t, db.table? a.table = some t ∧ isReadOnly t.name = false := by
  have hresolve := (Option.or_eq_none_iff.mp (Option.or_eq_none_iff.mp h).2).1
  simp only [Action.resolve] at hresolve
  split at hresolve
  next => cases hresolve
  next =>
    split at hresolve
    next => cases hresolve
    next t ht =>
      split at hresolve
      next => cases hresolve
      next hown => exact ⟨t, ht, Bool.eq_false_iff.mpr hown⟩

/-- What a successful action amounts to. -/
theorem execute_cases {moment : Binary64} {a : Action} {effect : Effect}
    (h : db.execute moment a = .ok (db', effect)) :
    ∃ t, db.table? a.table = some t ∧ isReadOnly t.name = false ∧
      match a with
      | .insert .. => db.insertRow moment t a = .ok (db', effect)
      | .update .. => db.updateRows moment t a = .ok (db', effect)
      | .delete .. => db.deleteRows moment t a = (db', effect) := by
  unfold execute at h
  split at h
  next => cases h
  next => cases h
  next t hfault ht =>
    obtain ⟨t', ht', hown⟩ := table_of_fault?_eq_none hfault
    obtain rfl : t' = t := Option.some.inj (ht'.symm.trans ht)
    refine ⟨t', ht, hown, ?_⟩
    cases a with
    | insert => exact h
    | update => exact h
    | delete => exact Except.ok.inj h

end Database

/-! ### Row numbers -/

namespace Table

/-- The row number stands in the column that holds it, if there is one. -/
def Numbered (t : Table) (row : NumberedRow) : Prop :=
  ∀ c, t.rowidColumn? = some c → row.2.cell c = .integer (.ofInt row.1)

/-- What a row of the table holds in a column. -/
def read (t : Table) (row : NumberedRow) (n : String) : Operand :=
  Source.read ⟨t.name, t, some row⟩ n

/-- Assigning to some names leaves a column alone: none of them is its name, and if one is for the
row number, the column is not. -/
def Keeps (t : Table) (names : List String) (n : String) : Prop :=
  ∀ k ∈ names, Caseless.same k n = false ∧ (t.isRowNumber k = true → t.isRowNumber n = false)

instance (t : Table) (names : List String) (n : String) : Decidable (t.Keeps names n) :=
  inferInstanceAs (Decidable (∀ k ∈ names, _ ∧ (_ → _)))

/-- A row follows from another one by assigning to some names. -/
def Assigned (t : Table) (names : List String) (row row' : NumberedRow) : Prop :=
  t.Numbered row → t.Numbered row' ∧ ∀ n, t.Keeps names n → t.read row n = t.read row' n

instance (t : Table) (names : List String) : IsTrans NumberedRow (t.Assigned names) where
  trans _ _ _ h h' hnum := by
    obtain ⟨hnum', hread⟩ := h hnum
    obtain ⟨hnum'', hread'⟩ := h' hnum'
    exact ⟨hnum'', fun n hn => (hread n hn).trans (hread' n hn)⟩

theorem Assigned.refl (t : Table) (names : List String) (row : NumberedRow) :
    t.Assigned names row row := fun hnum => ⟨hnum, fun _ _ => rfl⟩

/-- Assigning to more names leaves less alone. -/
theorem Assigned.mono {t : Table} {names names' : List String} {row row' : NumberedRow}
    (h : t.Assigned names row row') (hsub : ∀ k ∈ names, k ∈ names') :
    t.Assigned names' row row' := fun hnum =>
  ⟨(h hnum).1, fun n hn => (h hnum).2 n fun k hk => hn k (hsub k hk)⟩

variable {t : Table}

theorem cell_withRowid {c : String} (h : t.rowidColumn? ≠ some c) (rowid : Int) (cells : Cells) :
    (t.withRowid rowid cells).cell c = cells.cell c := by
  unfold withRowid
  split
  next => rfl
  next c' hc' =>
    have hne : c ≠ c' := fun he => h (he ▸ hc')
    simp [Cells.cell, hne]

theorem numbered_withRowid (t : Table) (rowid : Int) (cells : Cells) :
    t.Numbered (rowid, t.withRowid rowid cells) := by
  intro c hc
  simp [withRowid, hc, Cells.cell]

/-- Only cells under assigned names are assigned. -/
theorem exists_same_of_mem_assignedCells {data : List (String × Datum)} {c : String}
    (h : c ∈ (t.assignedCells data).map (·.1)) :
    ∃ k ∈ data.map (·.1), Caseless.same k c = true := by
  obtain ⟨e, he, rfl⟩ := List.mem_map.mp h
  obtain ⟨column, -, hcolumn⟩ := List.mem_filterMap.mp he
  split at hcolumn
  next => cases hcolumn
  next =>
    obtain ⟨d, hd, rfl⟩ := Option.map_eq_some_iff.mp hcolumn
    have hsame := List.find?_some hd
    exact ⟨d.1, List.mem_map_of_mem (List.mem_of_find?_eq_some hd), hsame⟩

theorem same_column_name {n : String} {c : ColumnInfo} (h : t.column? n = some c) :
    Caseless.same c.name n = true := by
  have hsame := List.find?_some h
  exact hsame

/-- Where no name is for the row number, none is assigned. -/
theorem assignedNumber?_eq_none {data : List (String × Datum)}
    (h : ∀ k ∈ data.map (·.1), t.isRowNumber k = false) : t.assignedNumber? data = none := by
  have hnil : (data.filter fun d => t.isRowNumber d.1) = [] := by
    refine List.filter_eq_nil_iff.mpr fun d hd => ?_
    simp [h d.1 (List.mem_map_of_mem hd)]
  rw [assignedNumber?, hnil]
  rfl

/-- An updated row follows from the old one by the assignments.  The two ways of reading the row
number come to the same, and neither is kept if a number is assigned. -/
theorem assigned_update {data : List (String × Datum)} {row : NumberedRow} {rowid : Int}
    (h : ((t.assignedNumber? data).map Datum.rowNumber).getD (.ok row.1) = .ok rowid) :
    t.Assigned (data.map (·.1)) row
      (rowid, t.withRowid rowid (row.2.insertMany (t.assignedCells data.reverse))) := by
  intro hnum
  refine ⟨numbered_withRowid t rowid _, fun n hn => ?_⟩
  have hnumber : t.isRowNumber n = true → row.1 = rowid := by
    intro hrow
    have hnone : t.assignedNumber? data = none := by
      refine assignedNumber?_eq_none fun k hk => ?_
      by_contra hk'
      have hn' := (hn k hk).2 (Bool.eq_true_of_not_eq_false hk')
      rw [hrow] at hn'
      cases hn'
    rw [hnone] at h
    exact Except.ok.inj h
  unfold read Source.read cell?
  cases hc : t.column? n with
  | none =>
    by_cases hname : isRowNumberName n = true
    · have hrow : t.isRowNumber n = true := by rw [isRowNumber, hc]; exact hname
      simp [hname, Cell.operand, hnumber hrow]
    · simp [hname]
  | some c =>
    have hcell : row.2.cell c.name =
        (t.withRowid rowid (row.2.insertMany (t.assignedCells data.reverse))).cell c.name := by
      by_cases hrowid : t.rowidColumn? = some c.name
      · have hrow : t.isRowNumber n = true := by simp [isRowNumber, hc, hrowid]
        rw [hnum c.name hrowid, hnumber hrow]
        exact (numbered_withRowid t rowid _ c.name hrowid).symm
      · rw [cell_withRowid hrowid, Cells.cell, Cells.cell, SortedMap.get?_insertMany_of_notMem]
        intro hassigned
        obtain ⟨k, hk, hsame⟩ := exists_same_of_mem_assignedCells hassigned
        have hkeep := (hn k (by simpa using hk)).1
        have hname := same_column_name hc
        simp only [Caseless.same, beq_iff_eq] at hsame hname
        rw [Caseless.same, hsame, hname, beq_self_eq_true] at hkeep
        cases hkeep
    simp only [Cell.operand, Option.map_some, Option.getD_some, hcell]

/-- A row that is written has a number that no other row has. -/
theorem contains_of_conflict?_eq_none {others : SortedMap Int Cells} {rowid : Int} {cells : Cells}
    (h : t.conflict? others rowid cells = none) : others.contains rowid = false := by
  unfold conflict? at h
  split at h
  next => cases h
  next =>
    split at h
    next => cases h
    next hnew => exact Bool.eq_false_iff.mpr hnew

end Table

/-- The names to which an action assigns. -/
def Action.names : Action → List String
  | insert _ values => values.keys
  | update _ values _ => values.keys
  | delete .. => []

theorem Action.mem_names_of_mem_assigned {a : Action} {db : Database} {moment : Binary64}
    {frames : List Frame} {k : String} (h : k ∈ (a.assigned db moment frames).map (·.1)) :
    k ∈ a.names := by
  obtain ⟨d, hd, rfl⟩ := List.mem_map.mp h
  cases a with
  | insert table values => exact (List.of_mem_zip hd).1
  | update table values predicate => exact (List.of_mem_zip hd).1
  | delete table predicate => cases hd

namespace Database

variable {db db' : Database} {t : Table} {moment : Binary64} {a : Action} {effect : Effect}

/-! ### New rows of one table -/

/-- In every table, the row numbers stand in their columns. -/
def Numbered (db : Database) : Prop :=
  ∀ n t, db.table? n = some t → ∀ row ∈ t.rows.toList, t.Numbered row

/-- The catalogs have no column for row numbers, so it is enough to look at the other tables. -/
theorem numbered_of_get? (h : ∀ n, Catalog.key n ≠ "sqlite_master" →
    Catalog.key n ≠ "sqlite_temp_master" → ∀ t, db.tables.get? (Catalog.key n) = some t →
    ∀ row ∈ t.rows.toList, t.Numbered row) : db.Numbered := by
  have hcatalog : ∀ name tables row, (Catalog.table name tables).Numbered row := by
    intro name tables row c hc
    simp [Table.rowidColumn?, Table.key, Catalog.table, Catalog.columns, Catalog.column] at hc
  intro n t ht row hrow
  by_cases hmain : Catalog.key n = "sqlite_master"
  · simp only [table?, hmain, if_true, Option.some.injEq] at ht
    subst ht
    exact hcatalog _ _ row
  · by_cases htemporary : Catalog.key n = "sqlite_temp_master"
    · simp only [table?, if_neg hmain, if_pos htemporary, Option.some.injEq] at ht
      subst ht
      exact hcatalog _ _ row
    · simp only [table?, if_neg hmain, if_neg htemporary] at ht
      exact h n hmain htemporary t ht row hrow

/-- It can be computed for all rows of these tables. -/
theorem numbered_of_toList (h : ∀ e ∈ db.tables.toList, ∀ row ∈ e.2.rows.toList,
    e.2.rowidColumn?.all (fun c => row.2.cell c == .integer (.ofInt row.1)) = true) :
    db.Numbered := by
  refine numbered_of_get? fun n _ _ t ht row hrow c hc => ?_
  have hcell := h _ ((SortedMap.get?_eq_some_iff _ _ _).mp ht) row hrow
  simpa [hc] using hcell

theorem numbered_empty : empty.Numbered :=
  numbered_of_get? fun n _ _ t ht => absurd ht (by simp [empty, SortedMap.get?, SortedMap.empty])

theorem rewrites_self (ht : db.table? a.table = some t) (hown : isReadOnly t.name = false) :
    db.Rewrites t t.rows db := by
  intro m
  split
  next hm =>
    have hkey := (key_of_table? ht hown).1
    rw [← ht, table?, table?, hm, hkey]
  next => rfl

/-- An inserted row is one more row. -/
theorem insertRow_rewrites (ht : db.table? a.table = some t) (hown : isReadOnly t.name = false)
    (h : db.insertRow moment t a = .ok (db', effect)) :
    ∃ row : NumberedRow, db.Rewrites t (t.rows.insert row.1 row.2) db' ∧ t.Numbered row := by
  simp only [insertRow] at h
  split at h
  next => cases h
  next rowid hnumber =>
    split at h
    next => cases h
    next hconflict =>
      obtain ⟨rfl, -⟩ := Prod.mk.inj (Except.ok.inj h)
      exact ⟨(rowid, _), rewrites_withTable ht hown _, t.numbered_withRowid rowid _⟩

/-- Removed rows leave the other rows. -/
theorem mem_of_mem_foldl_erase {gone : List NumberedRow} {rows : SortedMap Int Cells}
    {row : NumberedRow}
    (h : row ∈ (gone.foldl (fun kept row => kept.erase row.1) rows).toList) :
    row ∈ rows.toList := by
  induction gone generalizing rows with
  | nil => exact h
  | cons first rest ih => exact List.mem_of_mem_filter (ih h)

/-- An updated row takes the place of the old one. -/
theorem updateRow_rewrites {row : NumberedRow} (ht : db.table? a.table = some t)
    (hown : isReadOnly t.name = false) (h : updateRow moment a db row = .ok db') :
    ∃ row' : NumberedRow, db.Rewrites t ((t.rows.erase row.1).insert row'.1 row'.2) db' ∧
      (t.rows.erase row.1).contains row'.1 = false ∧
      t.Assigned a.names row row' := by
  simp only [updateRow, ht] at h
  split at h
  next => cases h
  next rowid hrowid =>
    split at h
    next => cases h
    next hconflict =>
      obtain rfl := Except.ok.inj h
      have hassigned := (Table.assigned_update hrowid).mono fun k hk =>
        Action.mem_names_of_mem_assigned hk
      refine ⟨_, rewrites_withTable ht hown _, ?_, hassigned⟩
      exact Table.contains_of_conflict?_eq_none hconflict

theorem foldlM_of_updateRows (h : db.updateRows moment t a = .ok (db', effect)) :
    (db.matching moment t a).foldlM (updateRow moment a) db = .ok db' := by
  simp only [updateRows] at h
  cases hfold : (db.matching moment t a).foldlM (updateRow moment a) db with
  | error e =>
    rw [hfold] at h
    cases h
  | ok db₁ =>
    rw [hfold] at h
    obtain ⟨rfl, -⟩ := Prod.mk.inj (Except.ok.inj h)
    rfl

/-- **Updated rows.**  The rows after an update follow one to one from the rows before it.  The
induction is on the rows still to be updated: they are untouched so far, since an updated row takes
the place of its old one and its number is not one of theirs. -/
theorem foldlM_updateRow_rewrites {todo : List NumberedRow} (ht : db.table? a.table = some t)
    (hown : isReadOnly t.name = false) (hmem : ∀ row ∈ todo, row ∈ t.rows.toList)
    (hdistinct : todo.Pairwise fun row row' => row.1 ≠ row'.1)
    (h : todo.foldlM (updateRow moment a) db = .ok db') :
    ∃ rows, db.Rewrites t rows db' ∧
      Multiset.Rel (t.Assigned a.names) (t.rows.toList : Multiset NumberedRow)
        (rows.toList : Multiset NumberedRow) := by
  induction todo generalizing db t with
  | nil =>
    obtain rfl := Except.ok.inj h
    exact ⟨t.rows, rewrites_self ht hown,
      Multiset.rel_refl_of_refl_on fun row _ => Table.Assigned.refl t a.names row⟩
  | cons row todo ih =>
    rw [List.foldlM_cons] at h
    obtain ⟨db₁, h₁, h₂⟩ : ∃ db₁, updateRow moment a db row = .ok db₁ ∧
        todo.foldlM (updateRow moment a) db₁ = .ok db' := by
      cases h₁ : updateRow moment a db row with
      | error e => rw [h₁] at h; cases h
      | ok db₁ => rw [h₁] at h; exact ⟨db₁, rfl, h⟩
    obtain ⟨row₁, hrewrites₁, hnew, hassigned⟩ := updateRow_rewrites ht hown h₁
    have hrow : row ∈ t.rows.toList := hmem row List.mem_cons_self
    have hold : t.rows.toList.Perm (row :: (t.rows.erase row.1).toList) :=
      SortedMap.perm_erase hrow
    have hpresent : ((t.rows.erase row.1).insert row₁.1 row₁.2).toList.Perm
        (row₁ :: (t.rows.erase row.1).toList) := SortedMap.perm_insert row₁.2 hnew
    have hone : Multiset.Rel (t.Assigned a.names) (t.rows.toList : Multiset NumberedRow)
        (((t.rows.erase row.1).insert row₁.1 row₁.2).toList : Multiset NumberedRow) := by
      rw [Multiset.coe_eq_coe.mpr hold, Multiset.coe_eq_coe.mpr hpresent]
      have hrest : Multiset.Rel (t.Assigned a.names)
          ((t.rows.erase row.1).toList : Multiset NumberedRow) (t.rows.erase row.1).toList :=
        Multiset.rel_refl_of_refl_on fun row _ => Table.Assigned.refl t a.names row
      exact hrest.cons hassigned
    obtain ⟨hfirst, hrest⟩ := List.pairwise_cons.mp hdistinct
    have hleft : ∀ row' ∈ todo, row' ∈ ((t.rows.erase row.1).insert row₁.1 row₁.2).toList := by
      intro row' hrow'
      refine hpresent.mem_iff.mpr (List.mem_cons_of_mem _ ?_)
      rcases List.mem_cons.mp (hold.mem_iff.mp (hmem row' (List.mem_cons_of_mem _ hrow'))) with
        rfl | hin
      · exact absurd rfl (hfirst _ hrow')
      · exact hin
    obtain ⟨rows, hrewrites, hall⟩ := ih
      (t := { t with rows := (t.rows.erase row.1).insert row₁.1 row₁.2 })
      (hrewrites₁.table? (key_of_table? ht hown).1) hown hleft hrest h₂
    exact ⟨rows, hrewrites₁.again hrewrites, hone.trans _ hall⟩

/-- **What a successful action writes.**  The rows of its table are new, and nothing else is
different: an update changes rows one to one, and other actions at least keep row numbers in their
columns. -/
theorem execute_rewrites (h : db.execute moment a = .ok (db', effect)) :
    ∃ t rows, db.table? a.table = some t ∧ isReadOnly t.name = false ∧ db.Rewrites t rows db' ∧
      match a with
      | .update .. => Multiset.Rel (t.Assigned a.names) (t.rows.toList : Multiset NumberedRow)
          (rows.toList : Multiset NumberedRow)
      | _ => ∀ row ∈ rows.toList, row ∈ t.rows.toList ∨ t.Numbered row := by
  obtain ⟨t, ht, hown, hcase⟩ := execute_cases h
  cases a with
  | insert table values =>
    obtain ⟨row, hrewrites, hnum⟩ := insertRow_rewrites ht hown hcase
    refine ⟨t, _, ht, hown, hrewrites, fun row' hrow' => ?_⟩
    rcases SortedMap.mem_insert hrow' with rfl | hrow'
    · exact Or.inr hnum
    · exact Or.inl hrow'
  | delete table predicate =>
    obtain ⟨rfl, -⟩ := Prod.mk.inj hcase
    exact ⟨t, _, ht, hown, rewrites_withTable ht hown _,
      fun row' hrow' => Or.inl (mem_of_mem_foldl_erase hrow')⟩
  | update table values predicate =>
    have hdistinct : t.rows.toList.Pairwise fun row row' => row.1 ≠ row'.1 :=
      t.rows.sorted.imp fun hlt heq => by simp [heq] at hlt
    obtain ⟨rows, hrewrites, hall⟩ := foldlM_updateRow_rewrites ht hown
      (fun row hrow => List.mem_of_mem_filter hrow) (hdistinct.filter _)
      (foldlM_of_updateRows hcase)
    exact ⟨t, rows, ht, hown, hrewrites, hall⟩

/-- The tables stay the same up to their rows. -/
theorem execute_sameSchema (h : db.execute moment a = .ok (db', effect)) : db.SameSchema db' := by
  obtain ⟨t, rows, ht, hown, hrewrites, -⟩ := execute_rewrites h
  exact hrewrites.sameSchema ht (key_of_table? ht hown).1

/-- Row numbers stay in their columns. -/
theorem execute_numbered (h : db.execute moment a = .ok (db', effect)) (hnum : db.Numbered) :
    db'.Numbered := by
  obtain ⟨t, rows, ht, hown, hrewrites, hrows⟩ := execute_rewrites h
  have hnew : ∀ row ∈ rows.toList, t.Numbered row := by
    intro row hrow
    cases a with
    | insert table values => exact (hrows row hrow).elim (hnum _ t ht row) id
    | delete table predicate => exact (hrows row hrow).elim (hnum _ t ht row) id
    | update table values predicate =>
      obtain ⟨row₀, hrow₀, hassigned⟩ :=
        Multiset.exists_mem_of_rel_of_mem (Multiset.rel_flip.mpr hrows) (a := row) hrow
      exact (hassigned (hnum _ t ht row₀ hrow₀)).1
  intro n t' ht' row hrow
  rw [hrewrites n] at ht'
  split at ht'
  next =>
    obtain rfl := Option.some.inj ht'
    exact hnew row hrow
  next => exact hnum n t' ht' row hrow

/-- A new table has no rows. -/
theorem createTable_numbered {info : TableInfo} {text : String} (hnum : db.Numbered)
    (h : db.createTable info text = .ok db') : db'.Numbered := by
  unfold createTable at h
  split at h
  next => cases h
  next =>
    obtain rfl := Except.ok.inj h
    refine numbered_of_get? fun n hmain htemporary t ht row hrow => ?_
    simp only [withTable, SortedMap.get?_insert] at ht
    split at ht
    next =>
      obtain rfl := Option.some.inj ht
      cases hrow
    next =>
      refine hnum n t ?_ row hrow
      simp only [table?, if_neg hmain, if_neg htemporary, ht]

end Database

/-! ### Columns left alone -/

/-- An action on a table leaves a column alone: it is another table's, or an update keeps it. -/
def Action.Spares (a : Action) (t : Table) (c : Column) : Prop :=
  Catalog.key c.table ≠ Catalog.key a.table ∨
    match a with
    | update .. => t.Keeps a.names c.name
    | _ => False

instance : (a : Action) → (t : Table) → (c : Column) → Decidable (a.Spares t c)
  | .update _ _ _, _, _ => inferInstanceAs (Decidable (_ ∨ Table.Keeps _ _ _))
  | .insert _ _, _, _ => inferInstanceAs (Decidable (_ ∨ False))
  | .delete _ _, _, _ => inferInstanceAs (Decidable (_ ∨ False))

/-- **Columns that an action leaves alone are as before.** -/
theorem Database.execute_agreesOn {db db' : Database} {moment : Binary64} {a : Action}
    {effect : Effect} (h : db.execute moment a = .ok (db', effect)) (hnum : db.Numbered)
    {reads : Column → Prop}
    (hreads : ∀ t, db.table? a.table = some t → ∀ c, reads c → a.Spares t c) :
    db.AgreesOn reads db' := by
  obtain ⟨t, rows, ht, hown, hrewrites, hrows⟩ := execute_rewrites h
  have hkey := (key_of_table? ht hown).1
  intro name n hn
  by_cases hname : Catalog.key name = Catalog.key a.table
  · cases a with
    | insert table values => exact ((hreads t ht _ hn).resolve_left (not_not.mpr hname)).elim
    | delete table predicate => exact ((hreads t ht _ hn).resolve_left (not_not.mpr hname)).elim
    | update table values predicate =>
      have hold : db.table? name = some t := by
        rw [← ht, Database.table?, Database.table?, hname]
      have hnew := hrewrites.table? (hname.trans hkey)
      rw [Database.rows, Database.rows, hold, hnew, ← Multiset.map_coe, ← Multiset.map_coe,
        Multiset.rel_map]
      refine hrows.mono fun row hrow row' _ hassigned => ⟨rfl, fun m hm => ?_⟩
      have hkeeps := (hreads t ht ⟨name, m⟩ hm).resolve_left (not_not.mpr hname)
      exact (hassigned (hnum _ t ht row hrow)).2 m hkeeps
  · have hsame : db'.table? name = db.table? name := hrewrites.table?_of_ne (hkey ▸ hname)
    have hrows : db'.rows name name = db.rows name name := by rw [Database.rows, hsame]; rfl
    rw [hrows]
    exact Database.AgreesOn.refl db reads name n hn

end LiveQuery
