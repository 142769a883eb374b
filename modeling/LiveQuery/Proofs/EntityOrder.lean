import LiveQuery.Proofs.Adoption
import LiveQuery.Proofs.Opening

/-!
# The order of entities

Opening takes the entities one after the other, and each meets the database as those before it left
it.  Entities with one table interact: the first of them creates the table, and the others have it
compared with theirs.  In another order they change these parts.

Still the order decides nothing about success.  An entity can have its table in the database as it
was at the beginning or it cannot (`Database.Ready`), and two entities whose table is missing get
along if they declare the same columns or have different tables (`Database.Agree`).  Opening
succeeds just if all are ready and all get along, and in that condition there is no order.  What
makes it work is that a table created for one schema matches another one just if the two have the
same columns, so it is the same whether the first is created and the second is compared or the other
way around.

One thing does depend on the order.  Names of tables are the same when they differ in case alone, so
two entities that spell one name differently share a table, and the table carries the spelling of
the entity that came first.  It must not matter for anything else: whether a table can be found and
whether a name or a text can be read is decided without regard to case.

## Main definitions

* `Database.Ready`: an entity by itself can have its table.
* `Database.Agree`: two entities do not create different tables under one name.
* `Table.IsFor`, `Table.Resembles`: tables created for an entity, and tables that are the same but
  for the spelling of their names.

## Main results

* `Store.ensureTables_iff`: when opening succeeds.
* `Store.open?_perm`: opening for the same entities in another order.
-/

namespace LiveQuery

/-! ### Texts without case -/

namespace Caseless

theorem map_toLower_eq_of_fold {s t : String} (h : fold s = fold t) :
    s.toList.map Char.toLower = t.toList.map Char.toLower := by
  rw [← toList_fold, ← toList_fold, h]

theorem fold_congr_append {s s' t t' : String} (h : fold s = fold s') (h' : fold t = fold t') :
    fold (s ++ t) = fold (s' ++ t') := by
  rw [fold, fold, String.toList_append, String.toList_append, List.map_append, List.map_append,
    map_toLower_eq_of_fold h, map_toLower_eq_of_fold h']

end Caseless

theorem Quoted.map_toLower_double (text : List Char) :
    (double '"' text).map Char.toLower = double '"' (text.map Char.toLower) := by
  have hquote (c : Char) : c.toLower = '"' ↔ c = '"' := Caseless.toLower_eq_iff (by decide)
  induction text with
  | nil => rfl
  | cons c text ih =>
    rw [double, List.map_cons, double]
    by_cases hc : c = '"'
    · rw [if_pos hc, if_pos ((hquote c).mpr hc), List.map_cons, List.map_cons, ih]
      rfl
    · rw [if_neg hc, if_neg (mt (hquote c).mp hc), List.map_cons, ih]

theorem fold_quoteName {n n' : String} (h : Caseless.fold n = Caseless.fold n') :
    Caseless.fold (String.ofList (quoteName n)) = Caseless.fold (String.ofList (quoteName n')) := by
  rw [Caseless.fold, Caseless.fold, String.toList_ofList, String.toList_ofList, quoteName,
    quoteName, Quoted.quote, Quoted.quote, List.map_cons, List.map_cons, List.map_append,
    List.map_append, Quoted.map_toLower_double, Quoted.map_toLower_double,
    Caseless.map_toLower_eq_of_fold h]

/-- Whether a character of code zero cuts off a name is seen without regard to case. -/
theorem Quoted.cutOff?_eq_none_congr {cs cs' : List Char} {o o' : Option Opened}
    {offset offset' : Nat} (hcs : cs.map Char.toLower = cs'.map Char.toLower)
    (ho : o.map Opened.ending = o'.map Opened.ending) :
    cutOff? '"' offset o cs = none ↔ cutOff? '"' offset' o' cs' = none := by
  induction cs generalizing cs' o o' offset offset' with
  | nil =>
    cases cs' with
    | nil => exact iff_of_true rfl rfl
    | cons c' cs' => cases hcs
  | cons c cs ih =>
    cases cs' with
    | nil => cases hcs
    | cons c' cs' =>
      obtain ⟨hc, hcs⟩ := List.cons.inj hcs
      have hquote : c = '"' ↔ c' = '"' := by
        rw [← Caseless.toLower_eq_iff (by decide : ('"').isAlpha = false), hc,
          Caseless.toLower_eq_iff (by decide)]
      have hzero : c = '\x00' ↔ c' = '\x00' := by
        rw [← Caseless.toLower_eq_iff (by decide : ('\x00').isAlpha = false), hc,
          Caseless.toLower_eq_iff (by decide)]
      cases o with
      | none =>
        cases o' with
        | some o' => cases ho
        | none =>
          rw [cutOff?, cutOff?]
          refine ih hcs ?_
          simp only [hquote]
          split_ifs <;> rfl
      | some o =>
        cases o' with
        | none => cases ho
        | some o' =>
          have hending : o.ending = o'.ending := Option.some.inj ho
          rw [cutOff?, cutOff?]
          simp only [hquote, hzero, hending]
          split_ifs
          · exact ih hcs rfl
          · exact ih hcs rfl
          · exact iff_of_false nofun nofun
          · exact ih hcs rfl

theorem EngineError.ofText?_eq_none_congr {t t' : String} (h : Caseless.fold t = Caseless.fold t') :
    ofText? t = none ↔ ofText? t' = none := by
  rw [ofText?, ofText?, Option.map_eq_none_iff, Option.map_eq_none_iff]
  exact Quoted.cutOff?_eq_none_congr (Caseless.map_toLower_eq_of_fold h) rfl

namespace Schema

variable {s s' : Schema}

theorem declared_congr (h : s.columns = s'.columns) : s.declared = s'.declared := by
  rw [declared, declared, h]

theorem fold_createText (hname : Caseless.fold s.table = Caseless.fold s'.table)
    (hcolumns : s.columns = s'.columns) :
    Caseless.fold s.createText = Caseless.fold s'.createText := by
  rw [createText, createText, declared_congr hcolumns]
  exact Caseless.fold_congr_append (Caseless.fold_congr_append (Caseless.fold_congr_append
    (Caseless.fold_congr_append rfl (fold_quoteName hname)) rfl) rfl) rfl

/-- The columns of a table that is created for a schema do not depend on its name. -/
theorem registered_congr (h : s.columns = s'.columns) :
    (TableInfo.ofSchema s).registered.columns = (TableInfo.ofSchema s').registered.columns := by
  have hcolumns : (TableInfo.ofSchema s).columns = (TableInfo.ofSchema s').columns :=
    congrArg (List.map ColumnInfo.ofDef) (declared_congr h)
  have hplace (i rank : Nat) : (TableInfo.ofSchema s).keyPlace i rank =
      (TableInfo.ofSchema s').keyPlace i rank := by
    rw [TableInfo.keyPlace, TableInfo.keyPlace, hcolumns]
  rw [TableInfo.registered, TableInfo.registered]
  simp only [hplace, hcolumns]

end Schema

/-- A table is as it was created for a schema. -/
structure Table.IsFor (t : Table) (s : Schema) : Prop where
  name : t.name = s.table
  columns : t.columns = (TableInfo.ofSchema s).registered.columns
  rows : t.rows = .empty
  statement : t.statement = s.createText

/-- A table is the same as another one but for the spelling of its name and for its page: it was
created for an entity of a list, as the other one was, and has the columns and rows of the other
one. -/
structure Table.Resembles {ι : Type} (m : Model ι) (entities : List ι) (t t' : Table) : Prop where
  name : Caseless.fold t.name = Caseless.fold t'.name
  columns : t.columns = t'.columns
  rows : t.rows = t'.rows
  entity : (∃ i ∈ entities, (m i).name = t.name) ∧ ∃ j ∈ entities, (m j).name = t'.name
  statement : t.name = t'.name → t.statement = t'.statement

/-- Tables created for two entities of a list with the same columns are the same but for the
spelling of their names. -/
theorem Table.IsFor.resembles {ι : Type} {m : Model ι} {entities : List ι} {i j : ι}
    {s₁ s₂ : Schema} {t₁ t₂ : Table} (hi : i ∈ entities) (hj : j ∈ entities)
    (hs₁ : (m i).schema m = .ok s₁) (hs₂ : (m j).schema m = .ok s₂)
    (hname : Caseless.fold s₁.table = Caseless.fold s₂.table) (hcolumns : s₁.columns = s₂.columns)
    (h₁ : t₁.IsFor s₁) (h₂ : t₂.IsFor s₂) : t₁.Resembles m entities t₂ where
  name := by rw [h₁.name, h₂.name, hname]
  columns := by rw [h₁.columns, h₂.columns, Schema.registered_congr hcolumns]
  rows := by rw [h₁.rows, h₂.rows]
  entity :=
    ⟨⟨i, hi, by rw [h₁.name, Entity.table_schema hs₁]⟩,
      ⟨j, hj, by rw [h₂.name, Entity.table_schema hs₂]⟩⟩
  statement htable := by
    rw [h₁.name, h₂.name] at htable
    rw [h₁.statement, h₂.statement, Schema.createText, Schema.createText, htable,
      Schema.declared_congr hcolumns]

/-! ### Finding and creating tables without case -/

namespace Database

variable {ι : Type} {m : Model ι} {db db' : Database} {i j k : ι} {entities entities' : List ι}

theorem columnsFault?_eq_none_congr {table table' text text' : String}
    (htext : EngineError.ofText? text = none ↔ EngineError.ofText? text' = none)
    (names before : List String) : columnsFault? table text before names = none ↔
      columnsFault? table' text' before names = none := by
  induction names generalizing before with
  | nil => exact iff_of_true rfl rfl
  | cons name names ih =>
    rw [columnsFault?, columnsFault?]
    split_ifs
    · exact htext
    · exact iff_of_false nofun nofun
    · exact iff_of_false nofun nofun
    · exact ih _

/-- Whether a table can be created is decided by its columns, and by its name without case. -/
theorem creationFault?_eq_none_congr {s s' : Schema}
    (hname : Caseless.fold s.table = Caseless.fold s'.table) (hcolumns : s.columns = s'.columns) :
    creationFault? (.ofSchema s) s.createText = none ↔
      creationFault? (.ofSchema s') s'.createText = none := by
  have htable : Caseless.fold (TableInfo.ofSchema s).table =
      Caseless.fold (TableInfo.ofSchema s').table := hname
  have hlist : (TableInfo.ofSchema s).columns = (TableInfo.ofSchema s').columns :=
    congrArg (List.map ColumnInfo.ofDef) (Schema.declared_congr hcolumns)
  rw [creationFault?, creationFault?, htable, hlist]
  split_ifs
  · exact iff_of_false nofun nofun
  · exact iff_of_false nofun nofun
  · exact columnsFault?_eq_none_congr
      (EngineError.ofText?_eq_none_congr (Schema.fold_createText hname hcolumns)) _ _

/-- The columns of the table of a name. -/
def columns? (db : Database) (n : String) : Option (List ColumnInfo) :=
  (db.table? n).map Table.columns

theorem columns?_congr {n n' : String} (h : Caseless.fold n = Caseless.fold n') :
    db.columns? n = db.columns? n' := by
  have hkey : Catalog.key n = Catalog.key n' := by rw [Catalog.key, Catalog.key, h]
  rw [columns?, columns?, table?, table?, hkey]

/-- Where no columns are found, no table is kept, and the name is none of the engine's own. -/
theorem columns?_eq_none_iff {n : String} : db.columns? n = none ↔
    isReadOnly n = false ∧ db.tables.get? (Caseless.fold n) = none := by
  rw [columns?, Option.map_eq_none_iff, table?_eq_none_iff]

/-- A new table is found under its name, and other tables have the columns that they had. -/
theorem columns?_createTable {info : TableInfo} {text : String}
    (h : db.createTable info text = .ok db') (hown : isReadOnly info.table = false) (n : String) :
    db'.columns? n = if Caseless.fold n = Caseless.fold info.table
      then some info.registered.columns else db.columns? n := by
  have hsame (hn : isReadOnly n = true) : Caseless.fold n ≠ Caseless.fold info.table := by
    intro hfold
    rw [isReadOnly, Catalog.key, hfold] at hn
    rw [isReadOnly, Catalog.key, hn] at hown
    cases hown
  rw [columns?, columns?, table?, table?]
  by_cases hmain : Catalog.key n = "sqlite_master"
  · rw [if_neg (hsame (by simp [isReadOnly, hmain])), if_pos hmain, if_pos hmain]
    rfl
  · by_cases htemporary : Catalog.key n = "sqlite_temp_master"
    · rw [if_neg (hsame (by simp [isReadOnly, htemporary])), if_neg hmain, if_neg hmain,
        if_pos htemporary, if_pos htemporary]
    · rw [if_neg hmain, if_neg hmain, if_neg htemporary, if_neg htemporary, get?_createTable h,
        Catalog.key_eq_fold hmain htemporary]
      split_ifs <;> rfl

/-! ### Ready entities -/

/-- A schema can have its table: the table is there and matches, or it can be created. -/
def Admits (db : Database) (s : Schema) : Prop :=
  EngineError.ofText? (infoText s.table) = none ∧
    match db.columns? s.table with
    | some columns => (TableInfo.mk s.table columns).Matches s.columns
    | none => creationFault? (.ofSchema s) s.createText = none

/-- An entity by itself can have its table. -/
def Ready (m : Model ι) (db : Database) (i : ι) : Prop :=
  ∃ s, (m i).schema m = .ok s ∧ db.Admits s

/-- Two entities do not create different tables under one name. -/
def Agree (m : Model ι) (db : Database) (i j : ι) : Prop :=
  ∀ s t, (m i).schema m = .ok s → (m j).schema m = .ok t →
    Caseless.fold s.table = Caseless.fold t.table → db.columns? s.table = none →
      s.columns = t.columns

theorem Agree.refl (m : Model ι) (db : Database) (i : ι) : Agree m db i i := by
  intro s t hs ht _ _
  rw [Except.ok.inj (hs.symm.trans ht)]

theorem Agree.symm (h : Agree m db i j) : Agree m db j i := by
  intro s t hs ht hname hnone
  refine (h t s ht hs hname.symm ?_).symm
  rw [← columns?_congr hname, hnone]

/-- A table matches the columns of one schema at most. -/
theorem matches_inj {t : TableInfo} {defs defs' : SortedSet ColumnDef} (h : t.Matches defs)
    (h' : t.Matches defs') : defs = defs' :=
  SortedSet.ext_mem fun d => (h.mem d).trans (h'.mem d).symm

theorem matches_registered {s : Schema} {columns : List ColumnDef} {table : String}
    (hs : Schema.ofColumns table columns = .ok s) (name : String) :
    (TableInfo.mk name (TableInfo.ofSchema s).registered.columns).Matches s.columns := by
  have hcompatible := TableInfo.isCompatibleWith_registered hs
  obtain ⟨-, hnames, htypes, hmem⟩ := (TableInfo.isCompatibleWith_iff_matches hs).mp hcompatible
  exact ⟨hnames, htypes, hmem⟩

/-- The table of a schema was missing and is created. -/
structure Creates (db db' : Database) (s : Schema) : Prop where
  missing : db.columns? s.table = none
  created : db.createTable (.ofSchema s) s.createText = .ok db'

section Creates

variable {s t : Schema}

theorem Creates.columns? (h : Creates db db' s) (n : String) :
    db'.columns? n = if Caseless.fold n = Caseless.fold s.table
      then some (TableInfo.ofSchema s).registered.columns else db.columns? n :=
  columns?_createTable h.created (columns?_eq_none_iff.mp h.missing).1 n

theorem Creates.get? (h : Creates db db' s) (key : String) :
    db'.tables.get? key = if key = Caseless.fold s.table
      then some ⟨s.table, (TableInfo.ofSchema s).registered.columns, .empty, s.createText,
        db.nextPage⟩
      else db.tables.get? key := get?_createTable h.created key

theorem Creates.creationFault? (h : Creates db db' s) :
    creationFault? (.ofSchema s) s.createText = none := by
  have hcreated := h.created
  unfold createTable at hcreated
  split at hcreated
  next => cases hcreated
  next hfault => exact hfault

/-- **A table created for one schema admits another one of its name just if the two have the same
columns** and the other one could have created the table as well. -/
theorem Creates.admits_iff_of_eq {columns : List ColumnDef} {table : String} (h : Creates db db' s)
    (hs : Schema.ofColumns table columns = .ok s)
    (hname : Caseless.fold s.table = Caseless.fold t.table) :
    db'.Admits t ↔ db.Admits t ∧ s.columns = t.columns := by
  have hfound : db'.columns? t.table = some (TableInfo.ofSchema s).registered.columns := by
    rw [h.columns?, if_pos hname.symm]
  have hmissing : db.columns? t.table = none := by rw [← columns?_congr hname, h.missing]
  have hmatches := matches_registered hs t.table
  rw [Admits, Admits, hfound, hmissing]
  constructor
  · rintro ⟨hread, hmatch⟩
    have hcolumns := matches_inj hmatches hmatch
    exact ⟨⟨hread, (creationFault?_eq_none_congr hname hcolumns).mp h.creationFault?⟩, hcolumns⟩
  · rintro ⟨⟨hread, -⟩, hcolumns⟩
    exact ⟨hread, hcolumns ▸ hmatches⟩

/-- Schemas of other names are not concerned. -/
theorem Creates.admits_iff_of_ne (h : Creates db db' s)
    (hname : Caseless.fold s.table ≠ Caseless.fold t.table) : db'.Admits t ↔ db.Admits t := by
  rw [Admits, Admits, h.columns?, if_neg (Ne.symm hname)]

theorem Creates.admits_iff {columns : List ColumnDef} {table : String} (h : Creates db db' s)
    (hs : Schema.ofColumns table columns = .ok s) : db'.Admits t ↔ db.Admits t ∧
      (Caseless.fold s.table = Caseless.fold t.table → s.columns = t.columns) := by
  by_cases hname : Caseless.fold s.table = Caseless.fold t.table
  · rw [h.admits_iff_of_eq hs hname]
    exact and_congr_right' ⟨fun hcolumns _ => hcolumns, fun hcolumns => hcolumns hname⟩
  · rw [h.admits_iff_of_ne hname]
    exact (and_iff_left fun he => absurd he hname).symm

/-- With an entity whose table was missing another one gets along if it declares the same columns or
has another table. -/
theorem Creates.agree_iff (h : Creates db db' s) (hs : (m i).schema m = .ok s)
    (ht : (m j).schema m = .ok t) : Agree m db i j ↔
      (Caseless.fold s.table = Caseless.fold t.table → s.columns = t.columns) := by
  constructor
  · exact fun hij hname => hij s t hs ht hname h.missing
  · intro hcolumns s' t' hs' ht' hname _
    obtain rfl := Except.ok.inj (hs.symm.trans hs')
    obtain rfl := Except.ok.inj (ht.symm.trans ht')
    exact hcolumns hname

end Creates

end Database

namespace Store

open LiveQuery.Database

variable {ι : Type} {m : Model ι} {db db' : Database} {i j k : ι} {entities entities' : List ι}

/-! ### One entity -/

/-- What is done about one entity, whose table is there or is created. -/
theorem ensureTable_outcome (h : ensureTable m db i = .ok db') :
    ∃ s, (m i).schema m = .ok s ∧ db.Admits s ∧
      (db.columns? s.table ≠ none ∧ db' = db ∨ Creates db db' s) := by
  rcases ensureTable_cases h with
    ⟨⟨s, found, hs, hfound, hcompatible⟩, rfl⟩ | ⟨s, hs, hnone, hcreate⟩
  · obtain ⟨hread, hinfo⟩ := info?_eq_ok_iff.mp hfound
    obtain ⟨t, ht, rfl⟩ := Option.map_eq_some_iff.mp hinfo
    have hcolumns : db'.columns? s.table = some t.columns :=
      Option.map_eq_some_iff.mpr ⟨t, ht, rfl⟩
    obtain ⟨defs, -, hdefs⟩ := Entity.exists_ofColumns hs
    refine ⟨s, hs, ⟨hread, ?_⟩, Or.inl ⟨?_, rfl⟩⟩
    · rw [hcolumns]
      exact ((TableInfo.isCompatibleWith_iff_matches hdefs).mp hcompatible).2
    · rw [hcolumns]
      exact Option.some_ne_none _
  · obtain ⟨hread, hmissing⟩ := info?_eq_ok_iff.mp hnone
    have hcolumns : db.columns? s.table = none := by
      rw [columns?, Option.map_eq_none_iff]
      exact Option.map_eq_none_iff.mp hmissing
    have hcreates : Creates db db' s := ⟨hcolumns, hcreate⟩
    refine ⟨s, hs, ⟨hread, ?_⟩, Or.inr hcreates⟩
    rw [hcolumns]
    exact hcreates.creationFault?

/-- **One entity gets its table just if it is ready.** -/
theorem ensureTable_iff : (∃ db', ensureTable m db i = .ok db') ↔ Ready m db i := by
  constructor
  · rintro ⟨db', h⟩
    obtain ⟨s, hs, hadmits, -⟩ := ensureTable_outcome h
    exact ⟨s, hs, hadmits⟩
  · rintro ⟨s, hs, hread, hadmits⟩
    rw [ensureTable, hs]
    dsimp only
    rw [info?, hread]
    dsimp only
    cases htable : db.table? s.table with
    | none =>
      rw [columns?, htable] at hadmits
      dsimp only [Option.map_none] at hadmits ⊢
      rw [createTable, hadmits]
      exact ⟨_, rfl⟩
    | some t =>
      rw [columns?, htable] at hadmits
      obtain ⟨defs, -, hdefs⟩ := Entity.exists_ofColumns hs
      dsimp only [Option.map_some] at hadmits ⊢
      rw [if_pos ((TableInfo.isCompatibleWith_iff_matches hdefs).mpr ⟨rfl, hadmits⟩)]
      exact ⟨_, rfl⟩

/-- **What one entity means for another one.**  Once the first has its table, the second is ready
just if it was ready before and the two get along. -/
theorem ready_ensureTable_iff (h : ensureTable m db i = .ok db') :
    Ready m db' j ↔ Ready m db j ∧ Agree m db i j := by
  obtain ⟨s, hs, -, ⟨hfound, rfl⟩ | hcreates⟩ := ensureTable_outcome h
  · refine (and_iff_left fun s' t hs' ht hname hnone => ?_).symm
    obtain rfl := Except.ok.inj (hs.symm.trans hs')
    exact absurd hnone hfound
  · obtain ⟨defs, -, hdefs⟩ := Entity.exists_ofColumns hs
    constructor
    · rintro ⟨t, ht, hready⟩
      obtain ⟨hadmitted, hcolumns⟩ := (hcreates.admits_iff hdefs).mp hready
      exact ⟨⟨t, ht, hadmitted⟩, (hcreates.agree_iff hs ht).mpr hcolumns⟩
    · rintro ⟨⟨t, ht, hadmitted⟩, hij⟩
      exact ⟨t, ht, (hcreates.admits_iff hdefs).mpr
        ⟨hadmitted, (hcreates.agree_iff hs ht).mp hij⟩⟩

/-- Two entities that get along with the first one get along afterwards just if they did before:
if they were to create the table that it has created, they have its columns both. -/
theorem agree_ensureTable_iff (h : ensureTable m db i = .ok db') (hj : Agree m db i j)
    (hk : Agree m db i k) : Agree m db' j k ↔ Agree m db j k := by
  obtain ⟨s, hs, -, ⟨-, rfl⟩ | hcreates⟩ := ensureTable_outcome h
  · exact Iff.rfl
  · constructor
    · intro hjk t u ht hu hname hnone
      by_cases hsame : Caseless.fold t.table = Caseless.fold s.table
      · exact (hj s t hs ht hsame.symm hcreates.missing).symm.trans
          (hk s u hs hu (hsame.symm.trans hname) hcreates.missing)
      · refine hjk t u ht hu hname ?_
        rw [hcreates.columns?, if_neg hsame, hnone]
    · intro hjk t u ht hu hname hnone
      refine hjk t u ht hu hname ?_
      rw [hcreates.columns?] at hnone
      split_ifs at hnone
      exact hnone

/-! ### All entities -/

theorem ensureTables_cons_eq_ok_iff : ensureTables m db (i :: entities) = .ok db' ↔
    ∃ db₁, ensureTable m db i = .ok db₁ ∧ ensureTables m db₁ entities = .ok db' := by
  rw [ensureTables]
  cases ensureTable m db i with
  | ok db₁ => simp
  | error e => simp

/-- **When opening succeeds**: if every entity is ready by itself and all get along. -/
theorem ensureTables_iff : (∃ db', ensureTables m db entities = .ok db') ↔
    (∀ i ∈ entities, Ready m db i) ∧ ∀ i ∈ entities, ∀ j ∈ entities, Agree m db i j := by
  induction entities generalizing db with
  | nil => exact iff_of_true ⟨db, rfl⟩ ⟨nofun, nofun⟩
  | cons i rest ih =>
    constructor
    · rintro ⟨db', h⟩
      obtain ⟨db₁, hfirst, hrest⟩ := ensureTables_cons_eq_ok_iff.mp h
      obtain ⟨hready, hagree⟩ := ih.mp ⟨db', hrest⟩
      have hboth : ∀ j ∈ rest, Ready m db j ∧ Agree m db i j := fun j hj =>
        (ready_ensureTable_iff hfirst).mp (hready j hj)
      have hall : ∀ j ∈ i :: rest, Agree m db i j :=
        List.forall_mem_cons.mpr ⟨.refl m db i, fun j hj => (hboth j hj).2⟩
      refine ⟨List.forall_mem_cons.mpr ⟨ensureTable_iff.mp ⟨db₁, hfirst⟩, fun j hj =>
        (hboth j hj).1⟩, List.forall_mem_cons.mpr ⟨hall, fun j hj =>
        List.forall_mem_cons.mpr ⟨(hboth j hj).2.symm, fun k hk => ?_⟩⟩⟩
      exact (agree_ensureTable_iff hfirst (hboth j hj).2 (hboth k hk).2).mp (hagree j hj k hk)
    · rintro ⟨hready, hagree⟩
      obtain ⟨hi, hready⟩ := List.forall_mem_cons.mp hready
      obtain ⟨db₁, hfirst⟩ := ensureTable_iff.mpr hi
      have hij : ∀ j ∈ rest, Agree m db i j := fun j hj =>
        hagree i List.mem_cons_self j (List.mem_cons_of_mem i hj)
      obtain ⟨db', hrest⟩ := ih.mpr ⟨fun j hj =>
        (ready_ensureTable_iff hfirst).mpr ⟨hready j hj, hij j hj⟩, fun j hj k hk =>
        (agree_ensureTable_iff hfirst (hij j hj) (hij k hk)).mpr
          (hagree j (List.mem_cons_of_mem i hj) k (List.mem_cons_of_mem i hk))⟩
      exact ⟨db', ensureTables_cons_eq_ok_iff.mpr ⟨db₁, hfirst, hrest⟩⟩

/-! ### New tables -/

/-- A new table is one that was created for the schema of an entity whose table was missing. -/
theorem exists_isFor_of_ensureTables (h : ensureTables m db entities = .ok db') {key : String}
    {t : Table} (hnone : db.tables.get? key = none) (ht : db'.tables.get? key = some t) :
    ∃ i ∈ entities, ∃ s, (m i).schema m = .ok s ∧ db.columns? s.table = none ∧
      Caseless.fold s.table = key ∧ t.IsFor s := by
  induction entities generalizing db with
  | nil =>
    obtain rfl := Except.ok.inj h
    rw [hnone] at ht
    cases ht
  | cons i rest ih =>
    obtain ⟨db₁, hfirst, hrest⟩ := ensureTables_cons_eq_ok_iff.mp h
    obtain ⟨s, hs, -, ⟨-, rfl⟩ | hcreates⟩ := ensureTable_outcome hfirst
    · obtain ⟨j, hj, hnew⟩ := ih hrest hnone
      exact ⟨j, List.mem_cons_of_mem i hj, hnew⟩
    · have hget := hcreates.get? key
      by_cases hkey : key = Caseless.fold s.table
      · rw [if_pos hkey] at hget
        have hkept := (ensureTables_spec hrest).1 key _ hget
        obtain rfl := Option.some.inj (hkept.symm.trans ht)
        exact ⟨i, List.mem_cons_self, s, hs, hcreates.missing, hkey.symm, ⟨rfl, rfl, rfl, rfl⟩⟩
      · rw [if_neg hkey, hnone] at hget
        obtain ⟨j, hj, u, hu, hmissing, hnew⟩ := ih hrest hget
        refine ⟨j, List.mem_cons_of_mem i hj, u, hu, ?_, hnew⟩
        rw [hcreates.columns?] at hmissing
        split_ifs at hmissing
        exact hmissing

/-- An entity whose table was missing has one afterwards. -/
theorem isSome_get?_of_missing (h : ensureTables m db entities = .ok db') (hi : i ∈ entities)
    {s : Schema} (hs : (m i).schema m = .ok s) (hmissing : db.columns? s.table = none) :
    (db'.tables.get? (Caseless.fold s.table)).isSome = true := by
  have hown := (columns?_eq_none_iff.mp hmissing).1
  rw [Entity.table_schema hs] at hown ⊢
  exact ((ensureTables_spec h).2.1 i hi).isSome_get? hown

/-- **A table that is new in one order is new in the other one**: both are as they were created for
entities that share it. -/
theorem exists_resembles_of_perm {db₁ db₂ : Database} (hperm : entities.Perm entities')
    (h₁ : ensureTables m db entities = .ok db₁) (h₂ : ensureTables m db entities' = .ok db₂)
    {key : String} {t₁ : Table} (hnone : db.tables.get? key = none)
    (ht₁ : db₁.tables.get? key = some t₁) :
    ∃ t₂, db₂.tables.get? key = some t₂ ∧ t₁.Resembles m entities t₂ := by
  obtain ⟨i, hi, s₁, hs₁, hmissing, hname₁, hfor₁⟩ := exists_isFor_of_ensureTables h₁ hnone ht₁
  have hsome := isSome_get?_of_missing h₂ (hperm.mem_iff.mp hi) hs₁ hmissing
  rw [hname₁] at hsome
  obtain ⟨t₂, ht₂⟩ := Option.isSome_iff_exists.mp hsome
  obtain ⟨j, hj, s₂, hs₂, -, hname₂, hfor₂⟩ := exists_isFor_of_ensureTables h₂ hnone ht₂
  have hj := hperm.mem_iff.mpr hj
  have hname := hname₁.trans hname₂.symm
  have hagree : Agree m db i j := (ensureTables_iff.mp ⟨db₁, h₁⟩).2 i hi j hj
  have hcolumns := hagree s₁ s₂ hs₁ hs₂ hname hmissing
  exact ⟨t₂, ht₂, hfor₁.resembles hi hj hs₁ hs₂ hname hcolumns hfor₂⟩

/-- Under a key that was free, there is a new table in both orders or in neither. -/
theorem rel_resembles_of_perm {db₁ db₂ : Database} (hperm : entities.Perm entities')
    (h₁ : ensureTables m db entities = .ok db₁) (h₂ : ensureTables m db entities' = .ok db₂)
    {key : String} (hnone : db.tables.get? key = none) :
    Option.Rel (Table.Resembles m entities) (db₁.tables.get? key) (db₂.tables.get? key) := by
  cases hget₁ : db₁.tables.get? key with
  | none =>
    cases hget₂ : db₂.tables.get? key with
    | none => exact .none
    | some t₂ =>
      obtain ⟨t₁, ht₁, -⟩ := exists_resembles_of_perm hperm.symm h₂ h₁ hnone hget₂
      rw [hget₁] at ht₁
      cases ht₁
  | some t₁ =>
    obtain ⟨t₂, hget₂, hresembles⟩ := exists_resembles_of_perm hperm h₁ h₂ hnone hget₁
    rw [hget₂]
    exact .some hresembles

end Store

/-! ### Two orders -/

theorem SortedMap.mem_values_iff {α : Type} {m : SortedMap String α} {a : α} :
    a ∈ m.values ↔ ∃ key, m.get? key = some a := by
  rw [values, List.mem_map]
  constructor
  · rintro ⟨⟨key, a⟩, h, rfl⟩
    exact ⟨key, (get?_eq_some_iff m key a).mpr h⟩
  · rintro ⟨key, h⟩
    exact ⟨(key, a), (get?_eq_some_iff m key a).mp h, rfl⟩

/-- Databases with the same names under all keys have the same names of tables. -/
theorem Database.tableNames_congr {db db' : Database}
    (h : ∀ key, (db.tables.get? key).map Table.name = (db'.tables.get? key).map Table.name) :
    db.tableNames = db'.tableNames := by
  have hmem (db : Database) (n : String) :
      n ∈ SortedSet.ofList (db.tables.values.map Table.name) ↔
        ∃ key, (db.tables.get? key).map Table.name = some n := by
    simp only [SortedSet.mem_ofList, List.mem_map, SortedMap.mem_values_iff,
      Option.map_eq_some_iff]
    exact ⟨fun ⟨t, ⟨key, ht⟩, hn⟩ => ⟨key, t, ht, hn⟩, fun ⟨key, t, ht, hn⟩ => ⟨t, ⟨key, ht⟩, hn⟩⟩
  refine congrArg SortedSet.toList (SortedSet.ext_mem fun n => ?_)
  rw [hmem db, hmem db']
  simp only [h]

/-- Where the entities spell alike what is the same name, tables that are the same but for the
spelling have the same name. -/
theorem Table.map_name_of_rel {ι : Type} {m : Model ι} {entities : List ι}
    {found found' : Option Table}
    (hspelled : ∀ i ∈ entities, ∀ j ∈ entities,
      Caseless.fold (m i).name = Caseless.fold (m j).name → (m i).name = (m j).name)
    (hrel : Option.Rel (Table.Resembles m entities) found found') :
    found.map Table.name = found'.map Table.name := by
  cases hrel with
  | none => rfl
  | some hresembles =>
    obtain ⟨⟨i, hi, hname⟩, j, hj, hname'⟩ := hresembles.entity
    have hfold := hresembles.name
    rw [← hname, ← hname'] at hfold
    rw [Option.map_some, Option.map_some, ← hname, ← hname', hspelled i hi j hj hfold]

namespace Store

open LiveQuery.Database

variable {ι : Type} {m : Model ι} {entities entities' : List ι}

/-- **The order of entities does not matter.**  Opening for the same entities in two orders fails in
both or succeeds in both.  If it succeeds, tables that were there are as they were, and the new
tables are the same in both but for the spelling of their names, which is that of an entity of the
list.  So if the entities spell alike what is the same name, the names are the same too. -/
theorem open?_perm (db : Database) (hperm : entities.Perm entities') :
    (∃ e e', open? m entities db = (.error e, db) ∧ open? m entities' db = (.error e', db)) ∨
      ∃ db₁ db₂, open? m entities db = (.ok ⟨db₁, ∅⟩, db₁) ∧
        open? m entities' db = (.ok ⟨db₂, ∅⟩, db₂) ∧
        (∀ key t, db.tables.get? key = some t →
          db₁.tables.get? key = some t ∧ db₂.tables.get? key = some t) ∧
        (∀ key, db.tables.get? key = none → Option.Rel (Table.Resembles m entities)
          (db₁.tables.get? key) (db₂.tables.get? key)) ∧
        ((∀ i ∈ entities, ∀ j ∈ entities, Caseless.fold (m i).name = Caseless.fold (m j).name →
          (m i).name = (m j).name) → db₁.tableNames = db₂.tableNames) := by
  have hsame : (∃ db₁, ensureTables m db entities = .ok db₁) ↔
      ∃ db₂, ensureTables m db entities' = .ok db₂ := by
    rw [ensureTables_iff, ensureTables_iff]
    simp only [hperm.mem_iff]
  cases h₁ : ensureTables m db entities with
  | error e =>
    cases h₂ : ensureTables m db entities' with
    | error e' => exact Or.inl ⟨e, e', by rw [open?, h₁], by rw [open?, h₂]⟩
    | ok db₂ =>
      obtain ⟨db₁, hdb₁⟩ := hsame.mpr ⟨db₂, h₂⟩
      rw [h₁] at hdb₁
      cases hdb₁
  | ok db₁ =>
    obtain ⟨db₂, h₂⟩ := hsame.mp ⟨db₁, h₁⟩
    have hkept {key : String} {t : Table} (ht : db.tables.get? key = some t) :
        db₁.tables.get? key = some t ∧ db₂.tables.get? key = some t :=
      ⟨(ensureTables_spec h₁).1 key t ht, (ensureTables_spec h₂).1 key t ht⟩
    refine Or.inr ⟨db₁, db₂, by rw [open?, h₁], by rw [open?, h₂], fun _ _ => hkept,
      fun _ => rel_resembles_of_perm hperm h₁ h₂, fun hspelled => tableNames_congr fun key => ?_⟩
    cases hget : db.tables.get? key with
    | some t => rw [(hkept hget).1, (hkept hget).2]
    | none => exact Table.map_name_of_rel hspelled (rel_resembles_of_perm hperm h₁ h₂ hget)

end Store

namespace Spellings

/-- Notes and tags.  The notes are declared twice, and their name is spelled in two ways. -/
def model : Model (Fin 3)
  | 0 => ⟨"Note", "id", [.value "id" .integer, .value "text" .text]⟩
  | 1 => ⟨"note", "id", [.value "text" .text, .value "id" .integer]⟩
  | 2 => ⟨"Tag", "id", [.value "id" .integer]⟩

/-- A database in which the tags have their table. -/
def tagged : Database := (Store.open? model [2] .empty).2

/-- The notes get one table in either order, beside that of the tags. -/
theorem open?_perm_notes :
    [0, 1, 2].Perm [2, 1, (0 : Fin 3)] ∧
      ∃ db₁ db₂, Store.open? model [0, 1, 2] tagged = (.ok ⟨db₁, ∅⟩, db₁) ∧
        Store.open? model [2, 1, 0] tagged = (.ok ⟨db₂, ∅⟩, db₂) ∧
        Option.Rel (Table.Resembles model [0, 1, 2]) (db₁.tables.get? "note")
          (db₂.tables.get? "note") := by
  have hperm : [0, 1, 2].Perm [2, 1, (0 : Fin 3)] := by decide
  refine ⟨hperm, ?_⟩
  rcases Store.open?_perm (m := model) tagged hperm with ⟨e, -, he, -⟩ |
    ⟨db₁, db₂, h₁, h₂, -, hnew, -⟩
  · have hopened : (Store.open? model [0, 1, 2] tagged).1.isOk = true := by decide +kernel
    rw [he] at hopened
    cases hopened
  · exact ⟨db₁, db₂, h₁, h₂, hnew "note" (by decide +kernel)⟩

/-- The table of the notes has the spelling of the one that comes first. -/
theorem tableNames_notes :
    (Store.open? model [0, 1] .empty).2.tableNames = ["Note"] ∧
      (Store.open? model [1, 0] .empty).2.tableNames = ["note"] := by
  decide +kernel

end Spellings

end LiveQuery
