import LiveQuery.Engine.TableInfo
import LiveQuery.Model.Entity
import Mathlib.Data.List.Pairwise
import Mathlib.Tactic.SplitIfs

/-!
# What a schema accepts

A schema is built by checking columns one after the other, each against those before it.  What
comes of all the checks together does not depend on the order of the columns: their names differ,
at most one of them is the primary key, and a key is not nullable.

The columns of a schema can therefore be listed in any order and give the same schema again.  In
particular the statement that creates a table lists the key first, and a table that was created
from a schema describes itself as that schema.

## Main definitions

* `Schema.Consistent`: columns that can be those of one table.

## Main results

* `Schema.ofColumns_eq_ok_iff`: which columns form a schema, and which one.
* `Schema.ofColumns_perm`: their order does not matter.
* `TableInfo.isCompatibleWith_registered`: a created table can be used for its schema.
-/

namespace LiveQuery

open Std

/-! ### Lists of members -/

/-- The only member that passes a test is found. -/
theorem find?_eq_some_of_unique {α : Type} {p : α → Bool} {l : List α} {a : α} (ha : a ∈ l)
    (hpa : p a = true) (hunique : ∀ b ∈ l, p b = true → b = a) : l.find? p = some a := by
  cases hfind : l.find? p with
  | none => exact absurd hpa (List.find?_eq_none.mp hfind a ha)
  | some b => rw [hunique b (List.mem_of_find?_eq_some hfind) (List.find?_some hfind)]

/-- A set lists what it was made of, if that has no repetitions. -/
theorem SortedSet.perm_ofList {α : Type} [Ord α] [TransOrd α] [LawfulEqOrd α] {l : List α}
    (h : l.Nodup) : (SortedSet.ofList l).toList.Perm l := by
  have hsorted : (SortedSet.ofList l).toList.Nodup := by
    refine (SortedSet.ofList l).sorted.imp ?_
    rintro a b hlt rfl
    simp at hlt
  exact (List.perm_ext_iff_of_nodup hsorted h).mpr fun a => SortedSet.mem_ofList

namespace Schema

variable {table : String} {before columns columns' : List ColumnDef} {c d : ColumnDef} {s : Schema}

/-! ### Consistent columns -/

/-- Columns that can be those of one table. -/
structure Consistent (columns : List ColumnDef) : Prop where
  /-- Their names differ. -/
  names : columns.Pairwise fun c d => c.name ≠ d.name
  /-- There are no two keys. -/
  keys : columns.Pairwise fun c d => ¬ (c.primaryKey = true ∧ d.primaryKey = true)
  /-- A key is not nullable. -/
  nullable : ∀ c ∈ columns, c.primaryKey = true → c.nullable = false

theorem Consistent.nil : Consistent [] := ⟨.nil, .nil, fun _ h => absurd h List.not_mem_nil⟩

theorem Consistent.nodup (h : Consistent columns) : columns.Nodup :=
  h.names.imp fun hne he => hne (congrArg ColumnDef.name he)

/-- Consistency does not depend on the order of the columns. -/
theorem Consistent.perm (h : Consistent columns) (hp : columns.Perm columns') :
    Consistent columns' where
  names := (hp.pairwise_iff fun hne => Ne.symm hne).mp h.names
  keys := (hp.pairwise_iff fun hkey hboth => hkey hboth.symm).mp h.keys
  nullable c hc := h.nullable c (hp.mem_iff.mpr hc)

/-- The columns at the front are consistent by themselves. -/
theorem Consistent.of_append (h : Consistent (before ++ columns)) : Consistent before where
  names := (List.pairwise_append.mp h.names).1
  keys := (List.pairwise_append.mp h.keys).1
  nullable c hc := h.nullable c (List.mem_append_left _ hc)

/-- Columns of one name are the same column. -/
theorem Consistent.eq_of_name (h : Consistent columns) (hc : c ∈ columns) (hd : d ∈ columns)
    (hname : c.name = d.name) : c = d := by
  by_contra hne
  have hsymm : Std.Symm fun c d : ColumnDef => c.name ≠ d.name := ⟨fun _ _ => Ne.symm⟩
  exact h.names.forall hc hd hne hname

/-- There is one key at most. -/
theorem Consistent.eq_of_key (h : Consistent columns) (hc : c ∈ columns) (hd : d ∈ columns)
    (hkey : c.primaryKey = true) (hkey' : d.primaryKey = true) : c = d := by
  by_contra hne
  have hsymm : Std.Symm fun c d : ColumnDef => ¬ (c.primaryKey = true ∧ d.primaryKey = true) :=
    ⟨fun _ _ hboth h => hboth h.symm⟩
  exact h.keys.forall hc hd hne ⟨hkey, hkey'⟩

/-! ### The checks -/

/-- A further column passes its check exactly if it is consistent with those before it. -/
theorem checkColumn_eq_ok_iff (table : String) (h : Consistent before) :
    checkColumn table before c = .ok () ↔ Consistent (before ++ [c]) := by
  constructor
  · intro hcheck
    unfold checkColumn at hcheck
    split_ifs at hcheck with hname hnullable hkey
    have hnames : ∀ b ∈ before, b.name ≠ c.name := by simpa using hname
    refine ⟨List.pairwise_append.mpr ⟨h.names, List.pairwise_singleton _ _, ?_⟩,
      List.pairwise_append.mpr ⟨h.keys, List.pairwise_singleton _ _, ?_⟩, ?_⟩
    · intro b hb c' hc'
      rw [List.mem_singleton.mp hc']
      exact hnames b hb
    · rintro b hb c' hc' ⟨hkeyb, hkeyc⟩
      rw [List.mem_singleton.mp hc'] at hkeyc
      rw [hkeyc, Bool.true_and, List.any_eq_true] at hkey
      exact hkey ⟨b, hb, hkeyb⟩
    · intro b hb hkeyb
      rcases List.mem_append.mp hb with hb | hb
      · exact h.nullable b hb hkeyb
      · rw [List.mem_singleton.mp hb] at hkeyb ⊢
        simpa [hkeyb] using hnullable
  · intro hall
    have hc : c ∈ before ++ [c] := List.mem_append_right _ (List.mem_singleton_self c)
    have hnames := (List.pairwise_append.mp hall.names).2.2
    have hkeys := (List.pairwise_append.mp hall.keys).2.2
    have hname : before.any (·.name == c.name) = false := by
      rw [List.any_eq_false]
      intro b hb
      simpa using hnames b hb c (List.mem_singleton_self c)
    unfold checkColumn
    rw [hname]
    cases hkey : c.primaryKey with
    | false => rfl
    | true =>
      have hbefore : before.any (·.primaryKey) = false := by
        rw [List.any_eq_false]
        intro b hb hkeyb
        exact hkeys b hb c (List.mem_singleton_self c) ⟨hkeyb, hkey⟩
      rw [hall.nullable c hc hkey, hbefore]
      rfl

/-- Columns pass their checks one after the other exactly if they are consistent with each other
and with those before them. -/
theorem checkColumns_eq_ok_iff (table : String) (h : Consistent before) :
    checkColumns table before columns = .ok () ↔ Consistent (before ++ columns) := by
  induction columns generalizing before with
  | nil => rw [List.append_nil]; exact iff_of_true rfl h
  | cons c rest ih =>
    have hsplit : before ++ c :: rest = (before ++ [c]) ++ rest := by simp
    rw [checkColumns, hsplit]
    cases hcheck : checkColumn table before c with
    | ok u => exact ih ((checkColumn_eq_ok_iff table h).mp hcheck)
    | error e =>
      refine iff_of_false (by simp) fun hall => ?_
      rw [(checkColumn_eq_ok_iff table h).mpr hall.of_append] at hcheck
      cases hcheck

/-- **Which columns form a schema.**  The table has a name, the columns are consistent, and the
schema has just these columns. -/
theorem ofColumns_eq_ok_iff :
    ofColumns table columns = .ok s ↔
      table ≠ "" ∧ Consistent columns ∧ s = ⟨table, .ofList columns⟩ := by
  have hchecks : checkColumns table [] columns = .ok () ↔ Consistent columns :=
    checkColumns_eq_ok_iff table .nil
  unfold ofColumns
  rw [← hchecks, Ne, ← String.isEmpty_iff]
  split_ifs with hempty
  · simp [hempty]
  · cases hcheck : checkColumns table [] columns with
    | ok u => simp [hempty, eq_comm]
    | error e => simp [hempty]

/-- The order of the columns does not matter. -/
theorem ofColumns_perm (h : ofColumns table columns = .ok s) (hp : columns.Perm columns') :
    ofColumns table columns' = .ok s := by
  obtain ⟨hname, hconsistent, rfl⟩ := ofColumns_eq_ok_iff.mp h
  refine ofColumns_eq_ok_iff.mpr ⟨hname, hconsistent.perm hp, ?_⟩
  congr 1
  refine SortedSet.ext_mem fun c => ?_
  rw [SortedSet.mem_ofList, SortedSet.mem_ofList, hp.mem_iff]

/-! ### Columns of a schema -/

theorem perm_toList_of_ofColumns (h : ofColumns table columns = .ok s) :
    s.columns.toList.Perm columns := by
  obtain ⟨-, hconsistent, rfl⟩ := ofColumns_eq_ok_iff.mp h
  exact SortedSet.perm_ofList hconsistent.nodup

theorem perm_declared (s : Schema) : s.declared.Perm s.columns.toList :=
  List.filter_append_perm _ _

/-- The columns as they are declared form the schema again. -/
theorem ofColumns_declared (h : ofColumns table columns = .ok s) :
    ofColumns table s.declared = .ok s :=
  ofColumns_perm h ((perm_declared s).trans (perm_toList_of_ofColumns h)).symm

/-- A column of a schema is found by its name. -/
theorem column?_of_mem (h : ofColumns table columns = .ok s) (hc : c ∈ columns) :
    s.column? c.name = some c := by
  obtain ⟨-, hconsistent, rfl⟩ := ofColumns_eq_ok_iff.mp h
  refine find?_eq_some_of_unique (SortedSet.mem_ofList.mpr hc) (beq_self_eq_true _) ?_
  intro d hd hname
  exact hconsistent.eq_of_name (SortedSet.mem_ofList.mp hd) hc (beq_iff_eq.mp hname)

/-- The key of a schema is its only key. -/
theorem primaryKey?_of_mem (h : ofColumns table columns = .ok s) (hc : c ∈ columns)
    (hkey : c.primaryKey = true) : s.primaryKey? = some c := by
  obtain ⟨-, hconsistent, rfl⟩ := ofColumns_eq_ok_iff.mp h
  refine find?_eq_some_of_unique (SortedSet.mem_ofList.mpr hc) hkey ?_
  intro d hd hkeyd
  exact hconsistent.eq_of_key (SortedSet.mem_ofList.mp hd) hc hkeyd hkey

end Schema

/-! ### Created tables -/

namespace DeclaredType

/-- The keyword of a type is kept as it is. -/
@[simp] theorem registered_sqlName (t : DataType) : registered t.sqlName = t.sqlName := by
  cases t <;> decide +kernel

end DeclaredType

namespace TableInfo

variable {columns : List ColumnDef} {s : Schema}

/-- A column of the key has a place in it, and no other column has. -/
theorem keyPlace_pos_iff {t : TableInfo} {c : ColumnInfo} {i : Nat}
    (hc : (c, i) ∈ t.columns.zipIdx) : 0 < t.keyPlace i c.keyPosition ↔ 0 < c.keyPosition := by
  unfold keyPlace
  split_ifs with hzero
  · rw [hzero]
  · have hpos : 0 < c.keyPosition := Nat.pos_of_ne_zero hzero
    refine iff_of_true (List.length_pos_of_mem (List.mem_filter.mpr ⟨hc, ?_⟩)) hpos
    simp [hpos]

/-- A list on which a partial map is given by a total one. -/
theorem mapM_eq_some_map {α β : Type} {l : List α} {f : α → Option β} {g : α → β}
    (h : ∀ a ∈ l, f a = some (g a)) : l.mapM f = some (l.map g) := by
  induction l with
  | nil => rfl
  | cons a l ih =>
    obtain ⟨ha, hl⟩ := List.forall_mem_cons.mp h
    rw [List.mapM_cons, ha, ih hl]
    rfl

/-- The column of a created table, as it is kept: its type and whether it is in the key are those
of its definition. -/
theorem toDef?_registered {d : ColumnDef} {place : Nat}
    (hplace : 0 < place ↔ d.primaryKey = true) :
    ColumnInfo.toDef? { ColumnInfo.ofDef d with
      declaredType := DeclaredType.registered (ColumnInfo.ofDef d).declaredType
      keyPosition := place } = some d := by
  have hkey : decide (0 < place) = d.primaryKey := by
    rw [Bool.eq_iff_iff, decide_eq_true_iff, hplace]
  simp only [ColumnInfo.toDef?, ColumnInfo.ofDef, DeclaredType.registered_sqlName,
    DataType.ofDeclared_sqlName, Option.map_some, hkey]

/-- A table created for a schema is kept with the columns of the schema. -/
theorem mapM_toDef?_registered (s : Schema) :
    (ofSchema s).registered.columns.mapM ColumnInfo.toDef? = some s.declared := by
  have hzip : (ofSchema s).columns.zipIdx =
      s.declared.zipIdx.map (Prod.map ColumnInfo.ofDef id) := List.zipIdx_map
  have hdef : ∀ p ∈ s.declared.zipIdx, ColumnInfo.toDef?
      { ColumnInfo.ofDef p.1 with
        declaredType := DeclaredType.registered (ColumnInfo.ofDef p.1).declaredType
        keyPosition := (ofSchema s).keyPlace p.2 (ColumnInfo.ofDef p.1).keyPosition } =
          some p.1 := by
    rintro ⟨d, i⟩ hp
    refine toDef?_registered ((keyPlace_pos_iff ?_).trans ?_)
    · rw [hzip]
      exact List.mem_map_of_mem hp
    · cases hkey : d.primaryKey <;> simp [ColumnInfo.ofDef, hkey]
  have hall := mapM_eq_some_map hdef
  rw [List.zipIdx_map_fst] at hall
  simpa only [registered, hzip, List.map_map, List.mapM_map, Function.comp_def, Prod.map_fst,
    Prod.map_snd, id_eq] using hall

/-- **A created table can be used for its schema.** -/
theorem isCompatibleWith_registered {table : String}
    (h : Schema.ofColumns table columns = .ok s) :
    (ofSchema s).registered.isCompatibleWith s = true := by
  have htable : (ofSchema s).registered.table = table := by
    obtain ⟨-, -, rfl⟩ := Schema.ofColumns_eq_ok_iff.mp h
    rfl
  have hschema : (ofSchema s).registered.toSchema? = some s := by
    rw [toSchema?, mapM_toDef?_registered, htable]
    simp only [Schema.ofColumns_declared h]
  rw [isCompatibleWith, hschema]
  exact decide_eq_true rfl

end TableInfo

/-! ### Schemas of entities -/

namespace Entity

variable {ι : Type} {m : Model ι} {e target : Entity ι} {p : Property ι} {s : Schema}

/-- A property is found under its own name, among those of its entity. -/
theorem lookup_eq_ok {n : String} (h : e.lookup n = .ok p) : p ∈ e.properties ∧ p.name = n := by
  unfold lookup property? at h
  split at h
  next q hq =>
    obtain rfl := Except.ok.inj h
    exact ⟨List.mem_of_find?_eq_some hq, by simpa using List.find?_some hq⟩
  next => cases h

/-- What a relationship refers to is the identifying property of its target, which has a column. -/
theorem targetId_eq_ok {id : Property ι} (h : e.targetId target p = .ok id) :
    id ∈ target.properties ∧ id.name = target.id ∧ id.hasColumn = true := by
  unfold targetId property? at h
  split at h
  next q hq =>
    split at h
    next hcolumn =>
      obtain rfl := Except.ok.inj h
      exact ⟨List.mem_of_find?_eq_some hq, by simpa using List.find?_some hq, hcolumn⟩
    next => cases h
  next => cases h

@[simp] theorem name_columnDef {t : DataType} : (e.columnDef p t).name = p.name := by
  unfold columnDef
  split <;> rfl

@[simp] theorem dataType_columnDef {t : DataType} : (e.columnDef p t).dataType = t := by
  unfold columnDef
  split <;> rfl

/-- The column of the identifying property is the primary key. -/
theorem primaryKey_columnDef {t : DataType} (h : p.name = e.id) :
    (e.columnDef p t).primaryKey = true := by
  rw [columnDef, if_pos (beq_iff_eq.mpr h)]
  rfl

/-- The type of every property of an entity with columns can be told, and if there is one, the
property has a column of it. -/
theorem columnType_of_columnDefs {ps : List (Property ι)} {columns : List ColumnDef}
    (h : e.columnDefs m ps = .ok columns) (hp : p ∈ ps) :
    ∃ t?, e.columnType m p = .ok t? ∧ ∀ t, t? = some t → e.columnDef p t ∈ columns := by
  induction ps generalizing columns with
  | nil => cases hp
  | cons q rest ih =>
    rw [columnDefs] at h
    split at h
    next => cases h
    next hnone =>
      rcases List.mem_cons.mp hp with rfl | hp
      · exact ⟨none, hnone, nofun⟩
      · exact ih h hp
    next t ht =>
      obtain ⟨columns', hrest, rfl⟩ := exists_of_map_eq_ok h
      rcases List.mem_cons.mp hp with rfl | hp
      · refine ⟨some t, ht, fun t' ht' => ?_⟩
        obtain rfl := Option.some.inj ht'
        exact List.mem_cons_self
      · obtain ⟨t?, ht?, hmem⟩ := ih hrest hp
        exact ⟨t?, ht?, fun t' ht' => List.mem_cons_of_mem _ (hmem t' ht')⟩

/-- The schema of an entity is made of the columns of its properties. -/
theorem exists_ofColumns (h : e.schema m = .ok s) :
    ∃ columns, e.columnDefs m e.properties = .ok columns ∧
      Schema.ofColumns e.name columns = .ok s := by
  obtain ⟨-, -, h⟩ := exists_of_bind_eq_ok h
  obtain ⟨columns, hcolumns, h⟩ := exists_of_bind_eq_ok h
  refine ⟨columns, hcolumns, ?_⟩
  split at h
  next s' hs' => rw [hs', Except.ok.inj h]
  next => cases h

/-- The table of an entity has the name of the entity. -/
theorem table_schema (h : e.schema m = .ok s) : s.table = e.name := by
  obtain ⟨columns, -, hcolumns⟩ := exists_ofColumns h
  obtain ⟨-, -, rfl⟩ := Schema.ofColumns_eq_ok_iff.mp hcolumns
  rfl

end Entity

end LiveQuery
