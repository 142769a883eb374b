import LiveQuery.Proofs.Schemas
import LiveQuery.Store.Basic
import Mathlib.Tactic.SplitIfs

/-!
# Opening a database

Opening goes through the entities one after the other, and each is checked against the database as
those before it left it.  So an entity may meet a table that was created a moment ago, and it may be
refused after others had their tables created.  What is gained on the way is never lost again:
tables are only added, under names that no table had, and an entity whose table is in place keeps
it (`Database.Extends`, `Database.InPlace`).

A table that is created for an entity is in place, because it describes itself as the schema it was
created for.  Hence opening a second time finds everything in place and changes nothing.

## Main definitions

* `Database.Extends`: tables were added, and none was changed.
* `Database.InPlace`: the table of an entity exists and can be used for it.

## Main results

* `Store.ensureTable_cases`: what is done about one entity.
* `Store.ensureTables_spec`: what is done about all of them.
* `Store.opening_all_or_nothing`: opening, and opening again.
-/

namespace LiveQuery

variable {ι : Type} {m : Model ι} {i : ι} {entities : List ι} {db db' db'' : Database}

namespace Database

/-! ### Finding tables -/

/-- A table is described if the question for it can be read. -/
theorem info?_eq_ok_iff {n : String} {found : Option TableInfo} :
    db.info? n = .ok found ↔ EngineError.ofText? (infoText n) = none ∧
      (db.table? n).map (fun t => ⟨n, t.columns⟩) = found := by
  unfold info?
  split
  next e he => simp [he]
  next hnone => simp [hnone]

/-- Where no table is found, none is kept, and the name is none of the engine's own. -/
theorem table?_eq_none_iff {n : String} :
    db.table? n = none ↔ isReadOnly n = false ∧ db.tables.get? (Caseless.fold n) = none := by
  rw [isReadOnly_eq_false_iff]
  constructor
  · intro h
    simp only [table?] at h
    split_ifs at h with hmain htemporary
    rw [Catalog.key_eq_fold hmain htemporary] at h
    exact ⟨⟨hmain, htemporary⟩, h⟩
  · rintro ⟨⟨hmain, htemporary⟩, h⟩
    rw [← Catalog.key_eq_fold hmain htemporary] at h
    simp only [table?, if_neg hmain, if_neg htemporary]
    exact h

/-! ### Added tables -/

/-- All tables are still there, as they were. -/
def Extends (db db' : Database) : Prop :=
  ∀ key t, db.tables.get? key = some t → db'.tables.get? key = some t

theorem Extends.refl (db : Database) : db.Extends db := fun _ _ h => h

theorem Extends.trans (h : db.Extends db') (h' : db'.Extends db'') : db.Extends db'' :=
  fun key t ht => h' key t (h key t ht)

/-- A table that was described before is described in the same way: catalogs never change their
columns. -/
theorem Extends.info? (h : db.Extends db') {n : String} {found : TableInfo}
    (hfound : db.info? n = .ok (some found)) : db'.info? n = .ok (some found) := by
  obtain ⟨hread, hfound⟩ := info?_eq_ok_iff.mp hfound
  obtain ⟨t, ht, rfl⟩ := Option.map_eq_some_iff.mp hfound
  refine info?_eq_ok_iff.mpr ⟨hread, Option.map_eq_some_iff.mpr ?_⟩
  simp only [table?] at ht ⊢
  split_ifs at ht ⊢ with hmain htemporary
  · obtain rfl := Option.some.inj ht
    exact ⟨_, rfl, rfl⟩
  · obtain rfl := Option.some.inj ht
    exact ⟨_, rfl, rfl⟩
  · exact ⟨t, h _ t ht, rfl⟩

/-- A new table is kept under its own name, beside all others. -/
theorem get?_createTable {info : TableInfo} {text : String}
    (h : db.createTable info text = .ok db') (key : String) :
    db'.tables.get? key = if key = Caseless.fold info.table
      then some ⟨info.table, info.registered.columns, .empty, text, db.nextPage⟩
      else db.tables.get? key := by
  unfold createTable at h
  split at h
  next => cases h
  next =>
    obtain rfl := Except.ok.inj h
    exact SortedMap.get?_insert _ _ _ _

/-- A new table is described by the columns it was created with. -/
theorem info?_createTable {info : TableInfo} {text : String}
    (h : db.createTable info text = .ok db') (hnone : db.info? info.table = .ok none) :
    db'.info? info.table = .ok (some info.registered) := by
  obtain ⟨hread, hmissing⟩ := info?_eq_ok_iff.mp hnone
  obtain ⟨hown, -⟩ := table?_eq_none_iff.mp (Option.map_eq_none_iff.mp hmissing)
  obtain ⟨hmain, htemporary⟩ := isReadOnly_eq_false_iff.mp hown
  refine info?_eq_ok_iff.mpr ⟨hread, ?_⟩
  simp only [table?, if_neg hmain, if_neg htemporary]
  rw [get?_createTable h, if_pos (Catalog.key_eq_fold hmain htemporary)]
  rfl

/-! ### The table of an entity -/

/-- The table of an entity is there, and can be used for its schema. -/
def InPlace (m : Model ι) (db : Database) (i : ι) : Prop :=
  ∃ declared found, (m i).schema m = .ok declared ∧ db.info? declared.table = .ok (some found) ∧
    found.isCompatibleWith declared = true

theorem InPlace.mono (h : InPlace m db i) (hext : db.Extends db') : InPlace m db' i := by
  obtain ⟨declared, found, hschema, hfound, hcompatible⟩ := h
  exact ⟨declared, found, hschema, hext.info? hfound, hcompatible⟩

/-- It is kept under the name of the entity, unless that is one of the engine's own. -/
theorem InPlace.isSome_get? (h : InPlace m db i) (hown : isReadOnly (m i).name = false) :
    (db.tables.get? (Caseless.fold (m i).name)).isSome = true := by
  obtain ⟨declared, found, hschema, hfound, -⟩ := h
  rw [Entity.table_schema hschema] at hfound
  obtain ⟨t, ht, -⟩ := Option.map_eq_some_iff.mp (info?_eq_ok_iff.mp hfound).2
  by_contra hnone
  rw [Option.not_isSome_iff_eq_none] at hnone
  rw [table?_eq_none_iff.mpr ⟨hown, hnone⟩] at ht
  cases ht

end Database

namespace Store

open LiveQuery.Database

/-! ### One entity -/

/-- **What is done about one entity.**  Its table is found and can be used, so nothing is done, or
it is missing and is created. -/
theorem ensureTable_cases (h : ensureTable m db i = .ok db') :
    (InPlace m db i ∧ db' = db) ∨
      ∃ declared, (m i).schema m = .ok declared ∧ db.info? declared.table = .ok none ∧
        db.createTable (.ofSchema declared) declared.createText = .ok db' := by
  unfold ensureTable at h
  split at h
  next => cases h
  next declared hschema =>
    split at h
    next => cases h
    next hnone =>
      split at h
      next hcreate =>
        obtain rfl := Except.ok.inj h
        exact Or.inr ⟨declared, hschema, hnone, hcreate⟩
      next => cases h
    next found hfound =>
      split_ifs at h with hcompatible
      exact Or.inl ⟨⟨declared, found, hschema, hfound, hcompatible⟩, (Except.ok.inj h).symm⟩

/-- Nothing is done about an entity whose table is in place. -/
theorem ensureTable_of_inPlace (h : InPlace m db i) : ensureTable m db i = .ok db := by
  obtain ⟨declared, found, hschema, hfound, hcompatible⟩ := h
  rw [ensureTable, hschema]
  dsimp only
  rw [hfound]
  exact if_pos hcompatible

/-- Afterwards the table of the entity is in place. -/
theorem inPlace_ensureTable (h : ensureTable m db i = .ok db') : InPlace m db' i := by
  rcases ensureTable_cases h with ⟨hplace, rfl⟩ | ⟨declared, hschema, hnone, hcreate⟩
  · exact hplace
  · obtain ⟨columns, -, hcolumns⟩ := Entity.exists_ofColumns hschema
    have hinfo := info?_createTable hcreate hnone
    exact ⟨declared, (TableInfo.ofSchema declared).registered, hschema, hinfo,
      TableInfo.isCompatibleWith_registered hcolumns⟩

/-- Every table is kept, and there is one more at most: that of the entity, if it was missing. -/
theorem get?_ensureTable (h : ensureTable m db i = .ok db') (key : String) :
    db'.tables.get? key = db.tables.get? key ∨
      db.tables.get? key = none ∧ (db'.tables.get? key).isSome = true ∧
        isReadOnly (m i).name = false ∧ Caseless.fold (m i).name = key := by
  rcases ensureTable_cases h with ⟨-, rfl⟩ | ⟨declared, hschema, hnone, hcreate⟩
  · exact Or.inl rfl
  · rw [get?_createTable hcreate]
    split_ifs with hkey
    · obtain ⟨-, hmissing⟩ := info?_eq_ok_iff.mp hnone
      obtain ⟨hown, hfold⟩ := table?_eq_none_iff.mp (Option.map_eq_none_iff.mp hmissing)
      have hname : (TableInfo.ofSchema declared).table = (m i).name :=
        Entity.table_schema hschema
      rw [Entity.table_schema hschema] at hown hfold
      rw [hname] at hkey
      exact Or.inr ⟨hkey ▸ hfold, rfl, hown, hkey.symm⟩
    · exact Or.inl rfl

theorem ensureTable_extends (h : ensureTable m db i = .ok db') : db.Extends db' := by
  intro key t ht
  rcases get?_ensureTable h key with hsame | ⟨hnone, -⟩
  · rw [hsame, ht]
  · rw [hnone] at ht
    cases ht

/-! ### All entities -/

/-- If all tables are in place, nothing is done. -/
theorem ensureTables_of_inPlace (h : ∀ i ∈ entities, InPlace m db i) :
    ensureTables m db entities = .ok db := by
  induction entities with
  | nil => rfl
  | cons i rest ih =>
    obtain ⟨hi, hrest⟩ := List.forall_mem_cons.mp h
    rw [ensureTables, ensureTable_of_inPlace hi]
    exact ih hrest

/-- **What is done about all entities.**  Tables are kept, every entity has its table in place
afterwards, also those at the beginning, and a table that was not there is one of an entity. -/
theorem ensureTables_spec (h : ensureTables m db entities = .ok db') :
    db.Extends db' ∧ (∀ i ∈ entities, InPlace m db' i) ∧
      ∀ key, db.tables.get? key = none → (db'.tables.get? key).isSome = true →
        ∃ i ∈ entities, isReadOnly (m i).name = false ∧ Caseless.fold (m i).name = key := by
  induction entities generalizing db with
  | nil =>
    obtain rfl := Except.ok.inj h
    refine ⟨.refl db, nofun, fun key hnone hsome => ?_⟩
    rw [hnone] at hsome
    cases hsome
  | cons i rest ih =>
    rw [ensureTables] at h
    split at h
    next db₁ hfirst =>
      obtain ⟨hext, hplace, hnew⟩ := ih h
      refine ⟨(ensureTable_extends hfirst).trans hext,
        List.forall_mem_cons.mpr ⟨(inPlace_ensureTable hfirst).mono hext, hplace⟩,
        fun key hnone hsome => ?_⟩
      rcases get?_ensureTable hfirst key with hsame | ⟨-, -, hown, hname⟩
      · obtain ⟨j, hj, hkey⟩ := hnew key (hsame.trans hnone) hsome
        exact ⟨j, List.mem_cons_of_mem _ hj, hkey⟩
      · exact ⟨i, List.mem_cons_self, hown, hname⟩
    next => cases h

/-- **Opening is all or nothing, and happens once.**  If it fails, the database is as it was.
Otherwise every table that was there is as it was, the others are those of the entities whose tables
were missing, and the table of every entity can be used for its schema.  Opening again for any of
these entities then succeeds and changes nothing. -/
theorem opening_all_or_nothing (m : Model ι) (entities : List ι) (db : Database) :
    (∃ e, open? m entities db = (.error e, db)) ∨
      ∃ db', open? m entities db = (.ok ⟨db', ∅⟩, db') ∧
        (∀ key t, db.tables.get? key = some t → db'.tables.get? key = some t) ∧
        (∀ key, db.tables.get? key = none → ((db'.tables.get? key).isSome = true ↔
          ∃ i ∈ entities, db.table? (m i).name = none ∧ Caseless.fold (m i).name = key)) ∧
        (∀ i ∈ entities, ∃ declared found, (m i).schema m = .ok declared ∧
          db'.info? declared.table = .ok (some found) ∧
          found.isCompatibleWith declared = true) ∧
        ∀ again, again ⊆ entities → open? m again db' = (.ok ⟨db', ∅⟩, db') := by
  cases hopen : ensureTables m db entities with
  | error e => exact Or.inl ⟨e, by rw [open?, hopen]⟩
  | ok db' =>
    obtain ⟨hext, hplace, hnew⟩ := ensureTables_spec hopen
    refine Or.inr ⟨db', by rw [open?, hopen], hext, fun key hnone => ⟨fun hsome => ?_, ?_⟩,
      hplace, fun again hsub => ?_⟩
    · obtain ⟨i, hi, hown, rfl⟩ := hnew key hnone hsome
      exact ⟨i, hi, table?_eq_none_iff.mpr ⟨hown, hnone⟩, rfl⟩
    · rintro ⟨i, hi, hmissing, rfl⟩
      exact (hplace i hi).isSome_get? (table?_eq_none_iff.mp hmissing).1
    · have hagain : ensureTables m db' again = .ok db' :=
        ensureTables_of_inPlace fun i hi => hplace i (hsub hi)
      rw [open?, hagain]

end Store

end LiveQuery
