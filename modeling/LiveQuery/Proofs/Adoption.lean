import LiveQuery.Proofs.Declarations

/-!
# Adopting tables

A table that is found in a database is adopted for a schema if it has that schema.  The comparison
goes a long way round: every declared column is turned into a definition, which fails if its type
stands for no storage class, the definitions are put together to a schema, which fails if they are
not consistent, and the result is compared.

Here the comparison is described without the way round.  That the definitions are consistent need
not be asked for: the schema was itself put together from definitions, and columns whose names
differ and which are the same set as its own are as consistent as its own are.  The names cannot be
left out.  Two columns of one name and one definition are one element of the set, and still they are
not the columns of a table.

## Main definitions

* `ColumnInfo.Describes`: a declared column is of the form that a definition says.
* `TableInfo.Matches`: the columns of a table are those of a set of definitions.

## Main results

* `ColumnInfo.toDef?_eq_build`: a definition is built step by step, and the key does not hide what
  is nullable.
* `TableInfo.toSchema?_eq_some_iff`: which schema a table has.
* `TableInfo.isCompatibleWith_exact`: adopted are the tables that match, in any order of columns.
-/

namespace LiveQuery

/-! ### Declared columns -/

namespace ColumnInfo

variable {c : ColumnInfo} {d : ColumnDef}

/-- A declared column is of the form that a definition says. -/
structure Describes (c : ColumnInfo) (d : ColumnDef) : Prop where
  /-- The names are the same. -/
  name : c.name = d.name
  /-- The declared type stands for the storage class. -/
  dataType : DataType.ofDeclared c.declaredType = some d.dataType
  /-- Null is allowed in both or in none. -/
  nullable : c.nullable = d.nullable
  /-- The key has a place in the key of the table. -/
  primaryKey : 0 < c.keyPosition ↔ d.primaryKey = true

/-- The definition of a column whose type stands for a storage class. -/
def asDef (c : ColumnInfo) : ColumnDef :=
  { name := c.name, dataType := c.type, nullable := c.nullable
    primaryKey := decide (0 < c.keyPosition) }

/-- A definition is built step by step.  Marking the key takes the nullability away, but it is set
afterwards, so a key in which null is allowed remains one. -/
theorem toDef?_eq_build (c : ColumnInfo) :
    c.toDef? = (DataType.ofDeclared c.declaredType).map fun t =>
      (if 0 < c.keyPosition then ColumnDef.asPrimaryKey { name := c.name, dataType := t }
        else { name := c.name, dataType := t }).withNullable c.nullable := by
  refine congrArg (Option.map · _) (funext fun t => ?_)
  split_ifs with hkey
  · rw [decide_eq_true hkey]
    rfl
  · rw [decide_eq_false hkey]
    rfl

/-- A declared column amounts to the definition that describes it. -/
theorem toDef?_eq_some_iff : c.toDef? = some d ↔ c.Describes d := by
  rw [toDef?, Option.map_eq_some_iff]
  constructor
  · rintro ⟨t, htype, rfl⟩
    exact ⟨rfl, htype, rfl, decide_eq_true_iff.symm⟩
  · rintro ⟨hname, htype, hnullable, hkey⟩
    have hdecide : decide (0 < c.keyPosition) = d.primaryKey := by
      rw [Bool.eq_iff_iff, decide_eq_true_iff, hkey]
    refine ⟨d.dataType, htype, ?_⟩
    rw [hname, hnullable, hdecide]

theorem Describes.asDef_eq (h : c.Describes d) : c.asDef = d := by
  have htype : c.type = d.dataType := by rw [type, h.dataType, Option.getD_some]
  have hkey : decide (0 < c.keyPosition) = d.primaryKey := by
    rw [Bool.eq_iff_iff, decide_eq_true_iff, h.primaryKey]
  rw [asDef, h.name, htype, h.nullable, hkey]

theorem describes_asDef (h : DataType.ofDeclared c.declaredType ≠ none) : c.Describes c.asDef := by
  obtain ⟨t, ht⟩ := Option.ne_none_iff_exists'.mp h
  refine ⟨rfl, ?_, rfl, decide_eq_true_iff.symm⟩
  rw [asDef, type, ht, Option.getD_some]

end ColumnInfo

/-- A partial map that agrees with a total one where it is defined gives the same list, if it is
defined on all of it. -/
theorem mapM_eq_some_iff {α β : Type} {f : α → Option β} {g : α → β}
    (hg : ∀ a b, f a = some b → g a = b) {l : List α} {l' : List β} :
    l.mapM f = some l' ↔ (∀ a ∈ l, f a ≠ none) ∧ l.map g = l' := by
  constructor
  · intro h
    induction l generalizing l' with
    | nil => exact ⟨fun a ha => absurd ha List.not_mem_nil, Option.some.inj h⟩
    | cons a l ih =>
      rw [List.mapM_cons] at h
      obtain ⟨b, hb, h⟩ := Option.bind_eq_some_iff.mp h
      obtain ⟨bs, hbs, h⟩ := Option.bind_eq_some_iff.mp h
      obtain rfl := Option.some.inj h
      obtain ⟨hdefined, rfl⟩ := ih hbs
      refine ⟨List.forall_mem_cons.mpr ⟨?_, hdefined⟩, ?_⟩
      · rw [hb]
        exact Option.some_ne_none b
      · rw [List.map_cons, hg a b hb]
  · rintro ⟨hdefined, rfl⟩
    refine TableInfo.mapM_eq_some_map fun a ha => ?_
    obtain ⟨b, hb⟩ := Option.ne_none_iff_exists'.mp (hdefined a ha)
    rw [hb, hg a b hb]

namespace TableInfo

variable {t t' : TableInfo} {table : String} {columns : List ColumnDef} {s : Schema}

/-! ### The schema of a table -/

/-- A table has a schema if the types of its columns stand for storage classes and the definitions
of the columns form that schema. -/
theorem toSchema?_eq_some_iff : t.toSchema? = some s ↔
    (∀ c ∈ t.columns, DataType.ofDeclared c.declaredType ≠ none) ∧
      Schema.ofColumns t.table (t.columns.map ColumnInfo.asDef) = .ok s := by
  have hread : t.toSchema? = some s ↔ ∃ defs, t.columns.mapM ColumnInfo.toDef? = some defs ∧
      Schema.ofColumns t.table defs = .ok s := by
    unfold toSchema?
    cases t.columns.mapM ColumnInfo.toDef? with
    | none => simp
    | some defs =>
      simp only [Option.some.injEq, exists_eq_left']
      cases Schema.ofColumns t.table defs <;> simp
  have hdefined : ∀ c : ColumnInfo, c.toDef? ≠ none ↔ DataType.ofDeclared c.declaredType ≠ none := by
    intro c
    rw [ColumnInfo.toDef?, Ne, Option.map_eq_none_iff]
  rw [hread]
  simp only [mapM_eq_some_iff fun c d h => (ColumnInfo.toDef?_eq_some_iff.mp h).asDef_eq, hdefined]
  constructor
  · rintro ⟨-, ⟨htypes, rfl⟩, hs⟩
    exact ⟨htypes, hs⟩
  · rintro ⟨htypes, hs⟩
    exact ⟨_, ⟨htypes, rfl⟩, hs⟩

/-- A table is adopted for the schema that it has. -/
theorem isCompatibleWith_eq_true_iff : t.isCompatibleWith s = true ↔ t.toSchema? = some s := by
  unfold isCompatibleWith Schema.isCompatible
  cases t.toSchema? <;> simp

/-! ### What is adopted -/

/-- The columns of a table are those of a set of definitions: no two have one name, their types
stand for storage classes, and the set has the definitions that describe one of them. -/
structure Matches (t : TableInfo) (defs : SortedSet ColumnDef) : Prop where
  /-- The names of the columns differ. -/
  names : (t.columns.map ColumnInfo.name).Nodup
  /-- The types of the columns stand for storage classes. -/
  types : ∀ c ∈ t.columns, DataType.ofDeclared c.declaredType ≠ none
  /-- The definitions are those of the columns. -/
  mem : ∀ d, d ∈ defs ↔ ∃ c ∈ t.columns, c.Describes d

/-- Whether a table matches does not depend on the order of its columns. -/
theorem Matches.perm {defs : SortedSet ColumnDef} (h : t.Matches defs)
    (hp : t.columns.Perm t'.columns) : t'.Matches defs where
  names := (hp.map ColumnInfo.name).nodup_iff.mp h.names
  types c hc := h.types c (hp.mem_iff.mpr hc)
  mem d := by
    rw [h.mem d]
    exact exists_congr fun c => and_congr_left' hp.mem_iff

/-- The definitions of the columns are those that describe one of them. -/
theorem mem_map_asDef_iff
    (htypes : ∀ c ∈ t.columns, DataType.ofDeclared c.declaredType ≠ none) {d : ColumnDef} :
    d ∈ t.columns.map ColumnInfo.asDef ↔ ∃ c ∈ t.columns, c.Describes d := by
  rw [List.mem_map]
  constructor
  · rintro ⟨c, hc, rfl⟩
    exact ⟨c, hc, ColumnInfo.describes_asDef (htypes c hc)⟩
  · rintro ⟨c, hc, hd⟩
    exact ⟨c, hc, hd.asDef_eq⟩

/-- The names of the definitions are the names of the columns. -/
theorem pairwise_asDef_iff :
    ((t.columns.map ColumnInfo.asDef).Pairwise fun c d => c.name ≠ d.name) ↔
      (t.columns.map ColumnInfo.name).Nodup := by
  rw [List.pairwise_map, List.Nodup, List.pairwise_map]
  rfl

/-- Columns that match those of a schema are consistent because those of the schema are. -/
theorem Matches.consistent (h : t.Matches s.columns) (hs : Schema.ofColumns table columns = .ok s) :
    Schema.Consistent (t.columns.map ColumnInfo.asDef) := by
  obtain ⟨-, hconsistent, rfl⟩ := Schema.ofColumns_eq_ok_iff.mp hs
  have hnames := pairwise_asDef_iff.mpr h.names
  have hmem : ∀ d ∈ t.columns.map ColumnInfo.asDef, d ∈ columns := by
    intro d hd
    rw [mem_map_asDef_iff h.types, ← h.mem d] at hd
    exact SortedSet.mem_ofList.mp hd
  refine ⟨hnames, hnames.imp_of_mem ?_, fun d hd => hconsistent.nullable d (hmem d hd)⟩
  -- Two keys would be one column of the schema, and so have one name.
  rintro c d hc hd hne ⟨hkeyc, hkeyd⟩
  exact hne (congrArg ColumnDef.name (hconsistent.eq_of_key (hmem c hc) (hmem d hd) hkeyc hkeyd))

/-- Adopted are the tables of the same name that match. -/
theorem isCompatibleWith_iff_matches (hs : Schema.ofColumns table columns = .ok s) :
    t.isCompatibleWith s = true ↔ t.table = s.table ∧ t.Matches s.columns := by
  rw [isCompatibleWith_eq_true_iff, toSchema?_eq_some_iff, Schema.ofColumns_eq_ok_iff]
  constructor
  · rintro ⟨htypes, -, hconsistent, rfl⟩
    refine ⟨rfl, pairwise_asDef_iff.mp hconsistent.names, htypes, fun d => ?_⟩
    rw [SortedSet.mem_ofList, mem_map_asDef_iff htypes]
  · rintro ⟨htable, hmatches⟩
    refine ⟨hmatches.types, ?_, hmatches.consistent hs, ?_⟩
    · obtain ⟨hname, -, rfl⟩ := Schema.ofColumns_eq_ok_iff.mp hs
      rwa [htable]
    · obtain ⟨name, defs⟩ := s
      have hdefs : defs = .ofList (t.columns.map ColumnInfo.asDef) := by
        refine SortedSet.ext_mem fun d => ?_
        rw [SortedSet.mem_ofList, mem_map_asDef_iff hmatches.types, hmatches.mem d]
      rw [htable, hdefs]

/-- Of the columns of a table that matches those of a schema at most one is in the key, and null is
not allowed in it. -/
theorem Matches.key (h : t.Matches s.columns) (hs : Schema.ofColumns table columns = .ok s) :
    (t.columns.countP fun c => decide (0 < c.keyPosition)) ≤ 1 ∧
      ∀ c ∈ t.columns, 0 < c.keyPosition → c.nullable = false := by
  obtain ⟨-, hcount, hnullable⟩ := Schema.consistent_iff.mp (h.consistent hs)
  rw [List.countP_map] at hcount
  refine ⟨hcount, fun c hc hkey => ?_⟩
  exact hnullable c.asDef (List.mem_map_of_mem hc) (decide_eq_true hkey)

/-- **Adoption is exact.**  A table is adopted for a schema just if it has the name of the schema
and its columns match those of the schema.  So the order of the columns does not matter, and a table
is refused if a column has a type that stands for no storage class, if null is allowed in a column
of the key, or if the key has several columns. -/
theorem isCompatibleWith_exact (hs : Schema.ofColumns table columns = .ok s) (t : TableInfo) :
    (t.isCompatibleWith s = true ↔ t.table = s.table ∧ t.Matches s.columns) ∧
      (∀ t' : TableInfo, t'.table = t.table → t.columns.Perm t'.columns →
        t'.isCompatibleWith s = t.isCompatibleWith s) ∧
      ((∃ c ∈ t.columns, DataType.ofDeclared c.declaredType = none) ∨
          (∃ c ∈ t.columns, 0 < c.keyPosition ∧ c.nullable = true) ∨
          (1 < t.columns.countP fun c => decide (0 < c.keyPosition)) →
        t.isCompatibleWith s = false) := by
  refine ⟨isCompatibleWith_iff_matches hs, fun t' htable hp => ?_, fun hbad => ?_⟩
  · rw [Bool.eq_iff_iff, isCompatibleWith_iff_matches hs, isCompatibleWith_iff_matches hs, htable]
    exact and_congr_right' ⟨fun h => h.perm hp.symm, fun h => h.perm hp⟩
  · rw [Bool.eq_false_iff, Ne, isCompatibleWith_iff_matches hs]
    rintro ⟨-, hmatches⟩
    obtain ⟨hcount, hnullable⟩ := hmatches.key hs
    rcases hbad with ⟨c, hc, hnone⟩ | ⟨c, hc, hkey, hnull⟩ | hseveral
    · exact hmatches.types c hc hnone
    · rw [hnullable c hc hkey] at hnull
      cases hnull
    · exact absurd hseveral (Nat.not_lt.mpr hcount)

end TableInfo

namespace Ships

/-- A table of ships that something else created, with its columns in an order of its own. -/
def found : TableInfo :=
  ⟨"Ship", [⟨"built", "bigint", true, 0⟩, ⟨"name", "VARCHAR(40)", false, 0⟩,
    ⟨"id", " unsigned int ", false, 1⟩]⟩

/-- The table of the ships is adopted in any order of its columns, but not with two columns in the
key. -/
theorem isCompatibleWith_exact_ships :
    Schema.ofColumns "Ship" columns = .ok schema ∧ found.isCompatibleWith schema = true ∧
      (TableInfo.mk "Ship" found.columns.reverse).isCompatibleWith schema = true ∧
      (TableInfo.mk "Ship" (found.columns.map fun c => { c with keyPosition := 1 })).isCompatibleWith
        schema = false := by
  have hschema : Schema.ofColumns "Ship" columns = .ok schema := rfl
  have hfound : found.isCompatibleWith schema = true := by decide +kernel
  obtain ⟨-, hperm, -⟩ := TableInfo.isCompatibleWith_exact hschema found
  obtain ⟨-, -, hrefused⟩ := TableInfo.isCompatibleWith_exact hschema
    ⟨"Ship", found.columns.map fun c => { c with keyPosition := 1 }⟩
  have hreverse := hperm ⟨"Ship", found.columns.reverse⟩ rfl found.columns.reverse_perm.symm
  exact ⟨hschema, hfound, hreverse.trans hfound, hrefused (.inr (.inr (by decide)))⟩

end Ships

end LiveQuery
