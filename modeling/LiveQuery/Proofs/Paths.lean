import LiveQuery.Expr.Columns
import LiveQuery.Model.KeyPath
import LiveQuery.Proofs.Schemas
import Mathlib.Data.Set.Operations

/-!
# Paths and the declared tables

A path is compiled by looking its names up one by one, a relationship refers to its target through
the first property that carries the name of the identifier, and the table of an entity is derived
from all its properties at once.  Nothing makes the three agree by construction: property names may
be repeated, to-many properties have no column, and an identifier may itself be a relationship.

They do agree as soon as every entity has a schema.  A repeated name would be a repeated column, and
a relationship has the type of a column only if the identifier it refers to holds values.  So every
column of a compiled path is declared, and a join goes to the primary key of its table.

## Main definitions

* `Model.Complete`: entities that may be used together.
* `Model.Declares`: a column as the schema of its table declares it.

## Main results

* `KeyPath.compile_property_eq_ok`, `KeyPath.compile_through_eq_ok`: what a path compiles to.
* `KeyPath.compile_declared`: what a compiled path mentions is declared, and joins go to keys of the
  type of the referring column.
-/

namespace LiveQuery

variable {ι : Type} {m : Model ι} {S : Set ι} {i target : ι}

namespace Model

/-! ### Entities that are used together -/

/-- Entities that may be used together: their tables have different names, relationships between
them do not lead outside, and each has a schema. -/
structure Complete (m : Model ι) (S : Set ι) : Prop where
  /-- The names differ. -/
  names : S.InjOn fun i => (m i).name
  /-- The target of every relationship is among the entities. -/
  targets : ∀ i ∈ S, ∀ p ∈ (m i).properties, ∀ target,
    p.kind = .toOne target ∨ p.kind = .toMany target → target ∈ S
  /-- Every entity has a schema. -/
  schemas : ∀ i ∈ S, ∃ s, (m i).schema m = .ok s

/-- The column `c` is declared as `d` by `s`, which is the schema of the one entity that has the
table of `c`. -/
def Declares (m : Model ι) (S : Set ι) (c : Column) (s : Schema) (d : ColumnDef) : Prop :=
  ∃ i ∈ S, (m i).name = c.table ∧ (∀ j ∈ S, (m j).name = c.table → j = i) ∧
    (m i).schema m = .ok s ∧ s.column? c.name = some d

end Model

namespace Entity

variable {e : Entity ι} {p : Property ι} {t? : Option DataType}

/-- A relationship whose type can be told refers to an identifier that holds values of this type. -/
theorem exists_targetId_of_columnType (h : e.columnType m p = .ok t?)
    (hkind : p.kind = .toOne target) :
    ∃ id t, e.targetId (m target) p = .ok id ∧ id.kind = .value t ∧ t? = some t := by
  simp only [columnType, hkind] at h
  obtain ⟨id, hid, h⟩ := exists_of_bind_eq_ok h
  split at h
  next t ht => exact ⟨id, t, hid, ht, (Except.ok.inj h).symm⟩
  next => cases h

/-- The type of a property with a column is one of the types of values. -/
theorem exists_type_of_hasColumn (h : e.columnType m p = .ok t?) (hcolumn : p.hasColumn = true) :
    ∃ t, t? = some t := by
  cases hkind : p.kind with
  | value t =>
    simp only [columnType, hkind] at h
    exact ⟨t, (Except.ok.inj h).symm⟩
  | toOne target =>
    obtain ⟨id, t, -, -, ht⟩ := exists_targetId_of_columnType h hkind
    exact ⟨t, ht⟩
  | toMany target => simp [Property.hasColumn, hkind] at hcolumn

end Entity

namespace Model.Complete

variable {p : Property ι}

/-- The type of every property can be told, and if there is one, the property is declared with it,
as the primary key if it identifies the entity. -/
theorem exists_declares (h : Complete m S) (hi : i ∈ S) (hp : p ∈ (m i).properties) :
    ∃ s t?, (m i).columnType m p = .ok t? ∧ ∀ t, t? = some t →
      ∃ d, Declares m S ⟨(m i).name, p.name⟩ s d ∧ d.dataType = t ∧
        (p.name = (m i).id → s.primaryKey? = some d) := by
  obtain ⟨s, hschema⟩ := h.schemas i hi
  obtain ⟨columns, hcolumns, hs⟩ := Entity.exists_ofColumns hschema
  obtain ⟨t?, ht?, hmem⟩ := Entity.columnType_of_columnDefs hcolumns hp
  refine ⟨s, t?, ht?, fun t ht => ⟨(m i).columnDef p t, ?_, ?_, fun hid => ?_⟩⟩
  · have hfound := Schema.column?_of_mem hs (hmem t ht)
    rw [Entity.name_columnDef] at hfound
    exact ⟨i, hi, rfl, fun j hj hij => h.names hj hi hij, hschema, hfound⟩
  · exact Entity.dataType_columnDef
  · exact Schema.primaryKey?_of_mem hs (hmem t ht) (Entity.primaryKey_columnDef hid)

/-- A property with a column is declared. -/
theorem exists_declares_of_hasColumn (h : Complete m S) (hi : i ∈ S) (hp : p ∈ (m i).properties)
    (hcolumn : p.hasColumn = true) : ∃ s d, Declares m S ⟨(m i).name, p.name⟩ s d := by
  obtain ⟨s, t?, ht?, hdeclared⟩ := h.exists_declares hi hp
  obtain ⟨t, ht⟩ := Entity.exists_type_of_hasColumn ht? hcolumn
  obtain ⟨d, hd, -⟩ := hdeclared t ht
  exact ⟨s, d, hd⟩

/-- A relationship is declared with the type of the primary key it refers to. -/
theorem exists_declares_of_toOne (h : Complete m S) (hi : i ∈ S) (hp : p ∈ (m i).properties)
    (hkind : p.kind = .toOne target) {id : Property ι}
    (hid : (m i).targetId (m target) p = .ok id) :
    ∃ s d s' d', Declares m S ⟨(m i).name, p.name⟩ s d ∧
      Declares m S ⟨(m target).name, id.name⟩ s' d' ∧ s'.primaryKey? = some d' ∧
        d'.dataType = d.dataType := by
  obtain ⟨s, t?, ht?, hdeclared⟩ := h.exists_declares hi hp
  obtain ⟨id', t, hid', hvalue, ht⟩ := Entity.exists_targetId_of_columnType ht? hkind
  obtain rfl : id' = id := Except.ok.inj (hid'.symm.trans hid)
  obtain ⟨d, hd, hdt, -⟩ := hdeclared t ht
  -- The identifier is a property of the target like any other, and its type is that of its values.
  obtain ⟨hmem, hname, -⟩ := Entity.targetId_eq_ok hid
  obtain ⟨s', t?', ht?', hdeclared'⟩ :=
    h.exists_declares (h.targets i hi p hp target (Or.inl hkind)) hmem
  have ht' : t?' = some t := by
    simp only [Entity.columnType, hvalue] at ht?'
    exact (Except.ok.inj ht?').symm
  obtain ⟨d', hd', hdt', hkey⟩ := hdeclared' t ht'
  exact ⟨s, d, s', d', hd, hd', hkey hname, hdt'.trans hdt.symm⟩

end Model.Complete

namespace KeyPath

open Model

variable {name : String} {rest : KeyPath} {e : Expr}

/-- A path that is a property compiles to the column of the property. -/
theorem compile_property_eq_ok (h : (property name).compile m i = .ok e) :
    ∃ p, (m i).lookup name = .ok p ∧ p.hasColumn = true ∧ e = .column ⟨(m i).name, p.name⟩ := by
  obtain ⟨p, hp, h⟩ := exists_of_bind_eq_ok h
  refine ⟨p, hp, ?_⟩
  cases hkind : p.kind with
  | value t =>
    rw [hkind] at h
    exact ⟨by rw [Property.hasColumn, hkind], (Except.ok.inj h).symm⟩
  | toOne target =>
    rw [hkind] at h
    exact ⟨by rw [Property.hasColumn, hkind], (Except.ok.inj h).symm⟩
  | toMany target =>
    rw [hkind] at h
    cases h

/-- A longer path compiles to a join: from the column of its first relationship to the identifier
of the target, with the rest of the path on the target. -/
theorem compile_through_eq_ok (h : (through name rest).compile m i = .ok e) :
    ∃ p target inner id, (m i).lookup name = .ok p ∧ p.kind = .toOne target ∧
      rest.compile m target = .ok inner ∧ (m i).targetId (m target) p = .ok id ∧
        e = .join ⟨(m i).name, p.name⟩ ⟨(m target).name, id.name⟩ inner := by
  obtain ⟨p, hp, h⟩ := exists_of_bind_eq_ok h
  cases hkind : p.kind with
  | value t =>
    rw [hkind] at h
    cases h
  | toOne target =>
    rw [hkind] at h
    obtain ⟨inner, hinner, h⟩ := exists_of_bind_eq_ok h
    obtain ⟨id, hid, he⟩ := exists_of_map_eq_ok h
    exact ⟨p, target, inner, id, hp, hkind, hinner, hid, he.symm⟩
  | toMany target =>
    rw [hkind] at h
    cases h

/-- **What a compiled path mentions is declared.**  Among entities that may be used together, every
column of a compiled path is one of the schema of its table, and every join goes to the primary key
of its table, which has the type of the column that refers to it. -/
theorem compile_declared {root : ι} {path : KeyPath} {e : Expr} (h : Complete m S)
    (hroot : root ∈ S) (hcompile : path.compile m root = .ok e) :
    (∀ c ∈ e.mentions, ∃ s d, Declares m S c s d) ∧
      ∀ k ∈ e.joinKeys, ∃ s d s' d', Declares m S k.1 s d ∧ Declares m S k.2 s' d' ∧
        s'.primaryKey? = some d' ∧ d'.dataType = d.dataType := by
  induction path generalizing root e with
  | property name =>
    obtain ⟨p, hp, hcolumn, rfl⟩ := compile_property_eq_ok hcompile
    obtain ⟨hmem, -⟩ := Entity.lookup_eq_ok hp
    refine ⟨fun c hc => ?_, fun _ hk => absurd hk List.not_mem_nil⟩
    obtain rfl := List.mem_singleton.mp hc
    exact h.exists_declares_of_hasColumn hroot hmem hcolumn
  | through name rest ih =>
    obtain ⟨p, target, inner, id, hp, hkind, hinner, hid, rfl⟩ := compile_through_eq_ok hcompile
    obtain ⟨hmem, -⟩ := Entity.lookup_eq_ok hp
    obtain ⟨hcolumns, hkeys⟩ := ih (h.targets root hroot p hmem target (Or.inl hkind)) hinner
    obtain ⟨s, d, s', d', hd, hd', hkey, htype⟩ :=
      h.exists_declares_of_toOne hroot hmem hkind hid
    constructor
    · intro c hc
      rcases List.mem_cons.mp hc with rfl | hc
      · exact ⟨s, d, hd⟩
      rcases List.mem_cons.mp hc with rfl | hc
      · exact ⟨s', d', hd'⟩
      · exact hcolumns c hc
    · intro k hk
      rcases List.mem_cons.mp hk with rfl | hk
      · exact ⟨s, d, s', d', hd, hd', hkey, htype⟩
      · exact hkeys k hk

end KeyPath

/-! ### People and companies -/

namespace Staff

open Model

/-- People work for companies, and companies are led by people. -/
def model : Model Bool
  | true =>
    ⟨"Person", "id", [.value "id" .integer, .value "name" .text, .toOne "employer" false]⟩
  | false =>
    ⟨"Company", "code", [.value "code" .text, .toOne "leader" true, .toMany "staff" true]⟩

theorem complete_model : Complete model Set.univ where
  names i _ j _ hij := by
    cases i <;> cases j <;> first | rfl | exact absurd hij (by decide)
  targets _ _ _ _ target _ := Set.mem_univ target
  schemas i _ := by
    cases i
    · exact ⟨⟨"Company", .ofList [{ name := "code", dataType := .text, primaryKey := true },
        { name := "leader", dataType := .integer }]⟩, rfl⟩
    · exact ⟨⟨"Person", .ofList [{ name := "id", dataType := .integer, primaryKey := true },
        { name := "name", dataType := .text }, { name := "employer", dataType := .text }]⟩, rfl⟩

/-- The path to the name of the person who leads the company that a person works for. -/
def leaderName : KeyPath := .through "employer" (.through "leader" (.property "name"))

/-- The expression of that path. -/
def leaderNameExpr : Expr :=
  .join ⟨"Person", "employer"⟩ ⟨"Company", "code"⟩
    (.join ⟨"Company", "leader"⟩ ⟨"Person", "id"⟩ (.column ⟨"Person", "name"⟩))

theorem leaderName_declared :
    leaderName.compile model true = .ok leaderNameExpr ∧
      (∀ c ∈ leaderNameExpr.mentions, ∃ s d, Declares model Set.univ c s d) ∧
      ∀ k ∈ leaderNameExpr.joinKeys, ∃ s d s' d', Declares model Set.univ k.1 s d ∧
        Declares model Set.univ k.2 s' d' ∧ s'.primaryKey? = some d' ∧
          d'.dataType = d.dataType := by
  have hcompile : leaderName.compile model true = .ok leaderNameExpr := rfl
  exact ⟨hcompile, KeyPath.compile_declared complete_model (Set.mem_univ true) hcompile⟩

end Staff

end LiveQuery
