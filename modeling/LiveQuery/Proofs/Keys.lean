import LiveQuery.Proofs.Assignments
import Mathlib.Data.List.Forall2
import Mathlib.Logic.ExistsUnique

/-!
# The key of a derived table

The table of an entity is derived from its properties: each property with a column gives one, in
the order of the properties, and the column that has the name of the identifier is marked as the
primary key.  A property keeps its name and type, where a to-one property has the type of the
identifier that it refers to, and its nullability unless it is the key.

What is not made sure of is that there is a key.  The identifier has to be the name of a property,
but this property may be to-many, and then nothing is marked: the table is derived without a key and
created as it stands.  Relationships to such an entity are refused, the entity itself is not.

## Main definitions

* `Property.Holds`: the type of the values that a property holds.
* `Entity.Stores`: a column stores a property.

## Main results

* `Entity.columnType_eq_some_iff`: the type of a column is that of its property.
* `Entity.columnDefs_stores`: columns are those of the properties with a column, in their order.
* `Entity.schema_stores`: the columns of a table and its key, if there is one.
-/

namespace LiveQuery

variable {ι : Type} {m : Model ι}

/-- The type of the values that a property holds: values of its own, or identifiers of the entity
that it refers to. -/
inductive Property.Holds (m : Model ι) (p : Property ι) : DataType → Prop
  | values {t : DataType} (hkind : p.kind = .value t) : Holds m p t
  | identifiers {target : ι} {id : Property ι} {t : DataType} (hkind : p.kind = .toOne target)
      (hid : (m target).property? (m target).id = some id) (htype : id.kind = .value t) :
      Holds m p t

namespace Entity

variable {e : Entity ι} {p : Property ι} {t : DataType} {s : Schema}

/-- A column stores a property of an entity.  It is the primary key if the property has the name of
the identifier, and then it may not be null. -/
structure Stores (m : Model ι) (e : Entity ι) (p : Property ι) (c : ColumnDef) : Prop where
  name : c.name = p.name
  dataType : p.Holds m c.dataType
  primaryKey : c.primaryKey = true ↔ p.name = e.id
  nullable : c.nullable = true ↔ p.nullable = true ∧ p.name ≠ e.id

/-! ### Columns of properties -/

/-- The type of a column is that of the values of its property. -/
theorem columnType_eq_some_iff : e.columnType m p = .ok (some t) ↔ p.Holds m t := by
  constructor
  · intro h
    cases hkind : p.kind with
    | value t' =>
      rw [columnType, hkind] at h
      obtain rfl := Option.some.inj (Except.ok.inj h)
      exact .values hkind
    | toOne target =>
      obtain ⟨id, t', hid, htype, ht⟩ := exists_targetId_of_columnType h hkind
      obtain rfl := Option.some.inj ht
      refine .identifiers hkind ?_ htype
      unfold targetId at hid
      split at hid
      next id' hid' =>
        split at hid
        · rw [hid', Except.ok.inj hid]
        · cases hid
      next => cases hid
    | toMany target =>
      rw [columnType, hkind] at h
      cases h
  · rintro (hkind | ⟨hkind, hid, htype⟩)
    · rw [columnType, hkind]
    · simp [columnType, hkind, targetId, hid, Property.hasColumn, htype, Except.bind]

/-- The column of a property stores it. -/
theorem stores_columnDef (h : e.columnType m p = .ok (some t)) :
    e.Stores m p (e.columnDef p t) where
  name := name_columnDef
  dataType := by
    rw [dataType_columnDef]
    exact columnType_eq_some_iff.mp h
  primaryKey := by
    by_cases hid : p.name = e.id <;> simp [columnDef, hid, ColumnDef.asPrimaryKey]
  nullable := by
    by_cases hid : p.name = e.id <;> simp [columnDef, hid, ColumnDef.asPrimaryKey]

/-- The columns of some properties are those of the properties with a column, in their order. -/
theorem columnDefs_stores {ps : List (Property ι)} {columns : List ColumnDef}
    (h : e.columnDefs m ps = .ok columns) :
    List.Forall₂ (e.Stores m) (ps.filter Property.hasColumn) columns := by
  induction ps generalizing columns with
  | nil =>
    obtain rfl := Except.ok.inj h
    exact .nil
  | cons p rest ih =>
    rw [columnDefs] at h
    cases htype : e.columnType m p with
    | error err => simp [htype] at h
    | ok t? =>
      rw [htype] at h
      cases t? with
      | none =>
        have hcolumn : p.hasColumn ≠ true := fun hcolumn => by
          obtain ⟨t, ht⟩ := exists_type_of_hasColumn htype hcolumn
          cases ht
        rw [List.filter_cons_of_neg hcolumn]
        exact ih h
      | some t =>
        obtain ⟨columns', hrest, rfl⟩ := exists_of_map_eq_ok h
        rw [List.filter_cons_of_pos (hasColumn_of_columnType htype)]
        exact .cons (stores_columnDef htype) (ih hrest)

/-! ### The key -/

/-- The key of a table is the column that has the name of the identifier. -/
theorem primaryKey_iff (h : e.schema m = .ok s) {c : ColumnDef} (hc : c ∈ s.columns) :
    (c.primaryKey = true ↔ c.name = e.id) ∧ (c.primaryKey = true → c.nullable = false) := by
  obtain ⟨p, -, t, ht, rfl⟩ := (mem_columns_iff h).mp hc
  have hstores := stores_columnDef ht
  rw [hstores.name]
  refine ⟨hstores.primaryKey, fun hkey => ?_⟩
  rw [Bool.eq_false_iff]
  exact fun hnull => (hstores.nullable.mp hnull).2 (hstores.primaryKey.mp hkey)

/-- There is exactly one key if a property of the name of the identifier has a column. -/
theorem existsUnique_key_iff (h : e.schema m = .ok s) :
    (∃! c, c ∈ s.columns ∧ c.primaryKey = true) ↔
      ∃ p ∈ e.properties, p.name = e.id ∧ p.hasColumn = true := by
  obtain ⟨columns, hcolumns, hs⟩ := exists_ofColumns h
  obtain ⟨-, hconsistent, hset⟩ := Schema.ofColumns_eq_ok_iff.mp hs
  constructor
  · rintro ⟨c, ⟨hc, hkey⟩, -⟩
    obtain ⟨p, hp, t, ht, rfl⟩ := (mem_columns_iff h).mp hc
    exact ⟨p, hp, (stores_columnDef ht).primaryKey.mp hkey, hasColumn_of_columnType ht⟩
  · rintro ⟨p, hp, hid, hcolumn⟩
    obtain ⟨t?, ht, -⟩ := columnType_of_columnDefs hcolumns hp
    obtain ⟨t, rfl⟩ := exists_type_of_hasColumn ht hcolumn
    have hmem : e.columnDef p t ∈ s.columns := (mem_columns_iff h).mpr ⟨p, hp, t, ht, rfl⟩
    have hkey : (e.columnDef p t).primaryKey = true := primaryKey_columnDef hid
    refine ⟨e.columnDef p t, ⟨hmem, hkey⟩, fun c ⟨hc, hkey'⟩ => ?_⟩
    rw [hset, SortedSet.mem_ofList] at hmem hc
    exact hconsistent.eq_of_key hc hmem hkey' hkey

/-- **The columns of a table and its key.**  The columns of a derived table store the properties
with a column, one each, and the key is the column that has the name of the identifier and may not
be null.  There is such a column, and only one, exactly if the identifier is the name of a property
with a column. -/
theorem schema_stores (h : e.schema m = .ok s) :
    (∃ columns, List.Forall₂ (e.Stores m) (e.properties.filter Property.hasColumn) columns ∧
        columns.Perm s.columns.toList) ∧
      (∀ c ∈ s.columns, (c.primaryKey = true ↔ c.name = e.id) ∧
        (c.primaryKey = true → c.nullable = false)) ∧
      ((∃! c, c ∈ s.columns ∧ c.primaryKey = true) ↔
        ∃ p ∈ e.properties, p.name = e.id ∧ p.hasColumn = true) := by
  obtain ⟨columns, hcolumns, hs⟩ := exists_ofColumns h
  exact ⟨⟨columns, columnDefs_stores hcolumns, (Schema.perm_toList_of_ofColumns hs).symm⟩,
    fun c hc => primaryKey_iff h hc, existsUnique_key_iff h⟩

end Entity

/-! ### Rooms and shelves -/

namespace Shelves

/-- Shelves stand in rooms and above each other, and rooms are identified by their shelves. -/
def model : Model Bool
  | true => ⟨"Shelf", "code",
      [.asNullable (.value "code" .text), .asNullable (.toOne "above" true)]⟩
  | false => ⟨"Room", "shelves", [.value "name" .text, .toMany "shelves" true]⟩

/-- The table of the shelves. -/
def shelf : Schema :=
  ⟨"Shelf", .ofList [{ name := "above", dataType := .text, nullable := true },
    { name := "code", dataType := .text, primaryKey := true }]⟩

/-- The table of the rooms. -/
def room : Schema := ⟨"Room", .ofList [{ name := "name", dataType := .text }]⟩

/-- The code is the key of the shelves although it is declared to be nullable. -/
theorem schema_stores_shelf :
    (model true).schema model = .ok shelf ∧ ∃! c, c ∈ shelf.columns ∧ c.primaryKey = true := by
  have hschema : (model true).schema model = .ok shelf := rfl
  obtain ⟨-, -, hkey⟩ := Entity.schema_stores hschema
  exact ⟨hschema, hkey.mpr ⟨.asNullable (.value "code" .text), List.mem_cons_self, rfl, rfl⟩⟩

/-- Rooms have a table none of whose columns is a key, and a database is opened with it. -/
theorem schema_room :
    (model false).schema model = .ok room ∧ (∀ c ∈ room.columns.toList, c.primaryKey = false) ∧
      ∃ s, Store.open? model [false] .empty = (.ok s, s.database) := by
  exact ⟨rfl, by decide, _, rfl⟩

end Shelves

end LiveQuery
