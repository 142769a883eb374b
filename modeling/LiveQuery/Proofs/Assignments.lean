import LiveQuery.Proofs.Paths
import LiveQuery.Store.Basic
import Mathlib.Data.List.Basic

/-!
# What insertions and updates assign

An update assigns what its value set assigns, and an insertion adds the defaults of the other
properties.  Three rules of an entity have a say in this: which properties have a column, which of
them an insertion requires, and which columns its table refuses to leave null.  The first two are
read off the properties one by one, the third off the schema that is made of all of them.

They agree but for two gaps.  A property without column may have a default, and an insertion
assigns it although there is nothing to assign it to.  And an identifier that may be null as a
property is required by no insertion, while the key of a table may never be null.  Apart from that
assigned names are columns, and an insertion that is not found wanting leaves no column open that
has to have a value.

## Main definitions

* `Entity.default?`: what an insertion assigns to a property that is left open.

## Main results

* `ValueSet.assignments_eq_ok_iff`: when a value set makes assignments, and which.
* `ValueSet.get?_fillDefaults`: what the defaults add to them.
* `Entity.mem_columns_iff`, `Entity.isSome_column?_iff`: the columns of an entity.
* `ValueSet.assigns_columns`: what is assigned, and that it has columns.
* `ValueSet.leaves_open_iff`: which columns that may not be null an insertion leaves open.
-/

namespace LiveQuery

variable {ι : Type} {m : Model ι}

/-! ### Columns of an entity -/

namespace Entity

variable {e : Entity ι} {p : Property ι} {c : ColumnDef} {schema : Schema} {n : String}

/-- A property whose type can be told has a column. -/
theorem hasColumn_of_columnType {t : DataType} (h : e.columnType m p = .ok (some t)) :
    p.hasColumn = true := by
  cases hkind : p.kind with
  | value t => rw [Property.hasColumn, hkind]
  | toOne target => rw [Property.hasColumn, hkind]
  | toMany target =>
    rw [columnType, hkind] at h
    cases h

/-- Only the column of the identifying property has another nullability than its property. -/
theorem nullable_columnDef {t : DataType} (h : p.name ≠ e.id) :
    (e.columnDef p t).nullable = p.nullable := by
  rw [columnDef, if_neg (by simpa using h)]

/-- Every column is that of a property. -/
theorem exists_of_mem_columnDefs {ps : List (Property ι)} {columns : List ColumnDef}
    (h : e.columnDefs m ps = .ok columns) (hc : c ∈ columns) :
    ∃ p ∈ ps, ∃ t, e.columnType m p = .ok (some t) ∧ c = e.columnDef p t := by
  induction ps generalizing columns with
  | nil =>
    obtain rfl := Except.ok.inj h
    cases hc
  | cons p rest ih =>
    rw [columnDefs] at h
    cases htype : e.columnType m p with
    | error err => simp [htype] at h
    | ok t? =>
      rw [htype] at h
      cases t? with
      | none =>
        obtain ⟨q, hq, hcolumn⟩ := ih h hc
        exact ⟨q, List.mem_cons_of_mem _ hq, hcolumn⟩
      | some t =>
        obtain ⟨columns', hrest, rfl⟩ := exists_of_map_eq_ok h
        rcases List.mem_cons.mp hc with rfl | hc
        · exact ⟨p, List.mem_cons_self, t, htype, rfl⟩
        · obtain ⟨q, hq, hcolumn⟩ := ih hrest hc
          exact ⟨q, List.mem_cons_of_mem _ hq, hcolumn⟩

/-- The columns of an entity are those of its properties. -/
theorem mem_columns_iff (h : e.schema m = .ok schema) :
    c ∈ schema.columns ↔
      ∃ p ∈ e.properties, ∃ t, e.columnType m p = .ok (some t) ∧ c = e.columnDef p t := by
  obtain ⟨columns, hcolumns, hs⟩ := exists_ofColumns h
  obtain ⟨-, -, rfl⟩ := Schema.ofColumns_eq_ok_iff.mp hs
  rw [SortedSet.mem_ofList]
  constructor
  · exact exists_of_mem_columnDefs hcolumns
  · rintro ⟨p, hp, t, ht, rfl⟩
    obtain ⟨t?, ht?, hmem⟩ := columnType_of_columnDefs hcolumns hp
    exact hmem t (Except.ok.inj (ht?.symm.trans ht))

/-- A name is that of a column if a property with a column has it. -/
theorem isSome_column?_iff (h : e.schema m = .ok schema) :
    (schema.column? n).isSome = true ↔ ∃ p ∈ e.properties, p.name = n ∧ p.hasColumn = true := by
  have hfind : (schema.column? n).isSome = true ↔ ∃ c ∈ schema.columns, c.name = n := by
    rw [Schema.column?, SortedSet.find?, List.find?_isSome]
    simp [SortedSet.mem_def]
  rw [hfind]
  constructor
  · rintro ⟨c, hc, rfl⟩
    obtain ⟨p, hp, t, ht, rfl⟩ := (mem_columns_iff h).mp hc
    exact ⟨p, hp, name_columnDef.symm, hasColumn_of_columnType ht⟩
  · rintro ⟨p, hp, rfl, hcolumn⟩
    obtain ⟨columns, hcolumns, -⟩ := exists_ofColumns h
    obtain ⟨t?, ht?, -⟩ := columnType_of_columnDefs hcolumns hp
    obtain ⟨t, rfl⟩ := exists_type_of_hasColumn ht? hcolumn
    exact ⟨e.columnDef p t, (mem_columns_iff h).mpr ⟨p, hp, t, ht?, rfl⟩, name_columnDef⟩

end Entity

/-! ### Defaults -/

namespace Entity

variable {e : Entity ι} {n : String}

/-- What an insertion assigns to the property of a name that is left open: the first default among
the properties of this name. -/
def default? (e : Entity ι) (n : String) : Option Default :=
  e.properties.findSome? fun p => if p.name = n then p.default else none

/-- There is no default for a name exactly if no property of this name has one. -/
theorem default?_eq_none_iff :
    e.default? n = none ↔ ∀ p ∈ e.properties, p.name = n → p.default = none := by
  simp [default?, List.findSome?_eq_none_iff]

/-- A default for a name is that of a property of this name. -/
theorem exists_of_isSome_default? (h : (e.default? n).isSome = true) :
    ∃ p ∈ e.properties, p.name = n ∧ p.default ≠ none := by
  by_contra hnone
  rw [default?_eq_none_iff.mpr fun p hp hname => by_contra fun hd => hnone ⟨p, hp, hname, hd⟩] at h
  cases h

end Entity

namespace ValueSet

variable {e : Entity ι} {s : ValueSet} {values : Assignments} {n : String}

/-- Defaults go to the names without value, and of several defaults for a name the first one
counts. -/
theorem get?_fillDefaults (fresh : String → Uuid) (values : Assignments) (ps : List (Property ι))
    (n : String) :
    (fillDefaults fresh values ps).get? n = (values.get? n).or
      ((ps.findSome? fun p => if p.name = n then p.default else none).map
        (defaultExpr (fresh n))) := by
  induction ps generalizing values with
  | nil => simp [fillDefaults]
  | cons p rest ih =>
    rw [fillDefaults, List.foldl_cons, ← fillDefaults, ih, List.findSome?_cons]
    cases hdefault : p.default with
    | none => simp
    | some d =>
      by_cases hname : p.name = n
      · subst hname
        cases hvalue : values.get? p.name <;> simp [SortedMap.contains, hvalue]
      · have hother : n ≠ p.name := Ne.symm hname
        cases hvalue : values.contains p.name <;> simp [hname, hother]

/-- Checked assignments are the given ones with their expressions, all of properties that have a
column. -/
theorem checkAssignments_eq_ok_iff {entries : List (String × Except CompileError Expr)}
    {l : List (String × Expr)} :
    checkAssignments e entries = .ok l ↔
      entries = l.map (fun a => (a.1, .ok a.2)) ∧
        ∀ a ∈ l, ∃ p, e.lookup a.1 = .ok p ∧ p.hasColumn = true := by
  induction entries generalizing l with
  | nil =>
    rw [checkAssignments]
    constructor
    · intro h
      obtain rfl := Except.ok.inj h
      exact ⟨rfl, fun _ ha => absurd ha List.not_mem_nil⟩
    · rintro ⟨h, -⟩
      rw [List.map_eq_nil_iff.mp h.symm]
  | cons entry rest ih =>
    obtain ⟨name, value⟩ := entry
    rw [checkAssignments]
    constructor
    · intro h
      obtain ⟨p, hp, h⟩ := exists_of_bind_eq_ok h
      split at h
      next hcolumn =>
        obtain ⟨expr, rfl, h⟩ := exists_of_bind_eq_ok h
        obtain ⟨l', hl', rfl⟩ := exists_of_map_eq_ok h
        obtain ⟨rfl, hall⟩ := ih.mp hl'
        exact ⟨rfl, List.forall_mem_cons.mpr ⟨⟨p, hp, hcolumn⟩, hall⟩⟩
      next => cases h
    · rintro ⟨h, hall⟩
      cases l with
      | nil => cases h
      | cons a l =>
        obtain ⟨hentry, hrest⟩ := List.cons.inj h
        obtain ⟨rfl, rfl⟩ := Prod.mk.inj hentry
        obtain ⟨⟨p, hp, hcolumn⟩, hall⟩ := List.forall_mem_cons.mp hall
        rw [hp, ih.mpr ⟨hrest, hall⟩]
        simp [Except.bind, Except.map, hcolumn]

/-- **When a value set makes assignments, and which.**  All of its expressions compile, and all of
its names are those of properties that have a column. -/
theorem assignments_eq_ok_iff :
    s.assignments e = .ok values ↔
      s.error = none ∧ s.values = values.map (fun _ expr => .ok expr) ∧
        ∀ n ∈ values.keys, ∃ p, e.lookup n = .ok p ∧ p.hasColumn = true := by
  have hkeys : (∀ n ∈ values.keys, ∃ p, e.lookup n = .ok p ∧ p.hasColumn = true) ↔
      ∀ a ∈ values.toList, ∃ p, e.lookup a.1 = .ok p ∧ p.hasColumn = true := by
    simp [SortedMap.keys]
  rw [hkeys, assignments]
  cases herror : s.error with
  | some err => simp
  | none =>
    constructor
    · intro h
      obtain ⟨l, hl, rfl⟩ := exists_of_map_eq_ok h
      obtain ⟨hentries, hall⟩ := checkAssignments_eq_ok_iff.mp hl
      have hsorted : l.Pairwise fun a b => compare a.1 b.1 = .lt := by
        have hmap := s.values.sorted
        rwa [hentries, List.pairwise_map] at hmap
      have htoList := SortedMap.toList_ofList hsorted
      exact ⟨rfl, SortedMap.ext_toList (hentries.trans (congrArg _ htoList.symm)),
        htoList.symm ▸ hall⟩
    · rintro ⟨-, hvalues, hall⟩
      have hentries : s.values.toList = values.toList.map fun a => (a.1, .ok a.2) := by
        rw [hvalues]
        rfl
      rw [checkAssignments_eq_ok_iff.mpr ⟨hentries, hall⟩]
      exact congrArg _ (SortedMap.ext_toList (SortedMap.toList_ofList values.sorted))

theorem contains_assignments (h : s.assignments e = .ok values) :
    values.contains n = s.values.contains n := by
  obtain ⟨-, hvalues, -⟩ := assignments_eq_ok_iff.mp h
  simp [SortedMap.contains, hvalues]

/-- An assigned name is that of a column. -/
theorem isSome_column?_of_mem {schema : Schema} (hschema : e.schema m = .ok schema)
    (h : s.assignments e = .ok values) (hn : n ∈ values.keys) :
    (schema.column? n).isSome = true := by
  obtain ⟨-, -, hcolumns⟩ := assignments_eq_ok_iff.mp h
  obtain ⟨p, hp, hcolumn⟩ := hcolumns n hn
  obtain ⟨hmem, hname⟩ := Entity.lookup_eq_ok hp
  exact (Entity.isSome_column?_iff hschema).mpr ⟨p, hmem, hname, hcolumn⟩

/-! ### Insertions and updates -/

variable {root : ι} {schema : Schema} {fresh : String → Uuid}

/-- A name is assigned a value of the set, or else its default. -/
theorem get?_fillDefaults_eq_some_iff (h : s.assignments e = .ok values) {expr : Expr} :
    (fillDefaults fresh values e.properties).get? n = some expr ↔
      s.values.get? n = some (.ok expr) ∨
        s.values.get? n = none ∧ ∃ d, e.default? n = some d ∧ expr = defaultExpr (fresh n) d := by
  obtain ⟨-, hset, -⟩ := assignments_eq_ok_iff.mp h
  rw [get?_fillDefaults, ← Entity.default?, hset, SortedMap.get?_map]
  cases values.get? n with
  | some expr' => simp
  | none => simp [@eq_comm _ expr]

/-- A name is assigned something if it is in the set or has a default. -/
theorem contains_fillDefaults (h : s.assignments e = .ok values) :
    (fillDefaults fresh values e.properties).contains n =
      (s.values.contains n || (e.default? n).isSome) := by
  rw [← contains_assignments h, SortedMap.contains, get?_fillDefaults, ← Entity.default?,
    Option.isSome_or, Option.isSome_map, SortedMap.contains]

/-- **What insertions and updates assign.**  An update assigns what its set assigns, and all of it
to columns.  An insertion keeps every value of its set and adds the defaults of all other names; it
assigns nothing but columns exactly if there is a column for every default. -/
theorem assigns_columns (hschema : (m root).schema m = .ok schema) (s : ValueSet) :
    (∀ predicate a, s.updating m root predicate = .ok a →
      ∃ values p, a = .update (m root).name values p ∧
        s.values = values.map (fun _ expr => .ok expr) ∧
          ∀ n ∈ values.keys, (schema.column? n).isSome = true) ∧
    ∀ fresh a, s.insertion m root fresh = .ok a →
      ∃ values, a = .insert (m root).name values ∧
        (∀ n expr, values.get? n = some expr ↔
          s.values.get? n = some (.ok expr) ∨
            s.values.get? n = none ∧ ∃ d, (m root).default? n = some d ∧
              expr = defaultExpr (fresh n) d) ∧
        ((∀ n ∈ values.keys, (schema.column? n).isSome = true) ↔
          ∀ p ∈ (m root).properties, p.default ≠ none →
            (schema.column? p.name).isSome = true) := by
  constructor
  · intro predicate a h
    obtain ⟨p, -, h⟩ := exists_of_bind_eq_ok h
    obtain ⟨values, hvalues, rfl⟩ := exists_of_map_eq_ok h
    obtain ⟨-, hset, -⟩ := assignments_eq_ok_iff.mp hvalues
    exact ⟨values, p, rfl, hset, fun n hn => isSome_column?_of_mem hschema hvalues hn⟩
  · intro fresh a h
    obtain ⟨own, hown, rfl⟩ := exists_of_map_eq_ok h
    refine ⟨_, rfl, fun n expr => get?_fillDefaults_eq_some_iff hown, ?_⟩
    constructor
    · intro hall p hp hdefault
      refine hall p.name (SortedMap.mem_keys_iff.mpr ?_)
      have hsome : ((m root).default? p.name).isSome = true := by
        rw [Option.isSome_iff_ne_none]
        exact fun hnone => hdefault (Entity.default?_eq_none_iff.mp hnone p hp rfl)
      rw [contains_fillDefaults hown, hsome, Bool.or_true]
    · intro hall n hn
      rw [SortedMap.mem_keys_iff, contains_fillDefaults hown, Bool.or_eq_true] at hn
      rcases hn with hset | hdefault
      · rw [← contains_assignments hown, ← SortedMap.mem_keys_iff] at hset
        exact isSome_column?_of_mem hschema hown hset
      · obtain ⟨p, hp, rfl, hp'⟩ := Entity.exists_of_isSome_default? hdefault
        exact hall p hp hp'

end ValueSet

/-- Fresh identifiers where nothing depends on them. -/
def Uuid.constant : String → Uuid := fun _ => .random 0

/-! #### Authors -/

namespace Authors

/-- Authors, whose books have no column but are given a default. -/
def model : Model Unit := fun _ => ⟨"Author", "id",
  [.value "id" .integer, .value "name" .text, .withDefault (.toMany "books" ()) (.integer 0)]⟩

/-- The table of the authors. -/
def schema : Schema :=
  ⟨"Author", .ofList [{ name := "id", dataType := .integer, primaryKey := true },
    { name := "name", dataType := .text }]⟩

/-- A store without authors. -/
def opened : Store := ⟨(Store.open? model [()] .empty).2, ∅⟩

/-- An author whose name is given twice, once in a set of its own. -/
def author : ValueSet :=
  .ofChanges model () [.assign (.property "id") (.literal (.integer 1)),
    .assign (.property "name") (.literal (.text "B")),
    .merge [.assign (.property "name") (.literal (.text "A"))]]

/-- What an insertion of the author assigns. -/
def inserted : Assignments :=
  .ofList [("books", .value (.integer 0)), ("id", .value (.integer 1)),
    ("name", .value (.text "A"))]

/-- The name that was given last is kept, and all that an update assigns is in the table. -/
theorem assigns_columns_author :
    (model ()).schema model = .ok schema ∧
      author.insertion model () Uuid.constant = .ok (.insert "Author" inserted) ∧
      inserted.get? "name" = some (.value (.text "A")) ∧
      ∃ values, author.updating model () none = .ok (.update "Author" values none) ∧
        ∀ n ∈ values.keys, (schema.column? n).isSome = true := by
  have hschema : (model ()).schema model = .ok schema := rfl
  have hinsertion : author.insertion model () Uuid.constant = .ok (.insert "Author" inserted) := rfl
  have hupdate : author.updating model () none = .ok (.update "Author" (.ofList
      [("id", .value (.integer 1)), ("name", .value (.text "A"))]) none) := rfl
  obtain ⟨hupdates, hinsertions⟩ := ValueSet.assigns_columns hschema author
  obtain ⟨values, ha, hvalues, -⟩ := hinsertions Uuid.constant _ hinsertion
  obtain ⟨values', p, ha', -, hcolumns⟩ := hupdates none _ hupdate
  obtain ⟨-, rfl⟩ := Action.insert.inj ha
  obtain ⟨-, rfl, rfl⟩ := Action.update.inj ha'
  exact ⟨hschema, hinsertion, (hvalues _ _).mpr (Or.inl rfl), _, hupdate, hcolumns⟩

/-- The default goes to a name that is not in the table, and the engine refuses the insertion. -/
theorem insert_author :
    (model ()).schema model = .ok schema ∧
      author.insertion model () Uuid.constant = .ok (.insert "Author" inserted) ∧
      "books" ∈ inserted.keys ∧ schema.column? "books" = none ∧
      Store.open? model [()] .empty = (.ok opened, opened.database) ∧
      (opened.insert model () Uuid.constant (.ofInt 1) author).1 =
        .error (.storage (.unknownColumn "Author" "books")) := by
  exact ⟨rfl, rfl, by decide +kernel, by decide +kernel, rfl, rfl⟩

end Authors

namespace ValueSet

variable {e : Entity ι} {s : ValueSet} {values : Assignments} {n : String} {root : ι}
  {schema : Schema} {fresh : String → Uuid}

/-! ### Columns that may not be null -/

/-- A set is sufficient if it assigns every required property. -/
theorem isSufficient_iff :
    s.isSufficient e = true ↔
      ∀ p ∈ e.properties, p.isRequired = true → s.values.contains p.name = true := by
  simp only [isSufficient, missing, Entity.requiredForInsert, List.isEmpty_iff,
    List.filter_eq_nil_iff, List.forall_mem_map, List.mem_filter,
    Bool.not_eq_false, Bool.not_eq_true', and_imp]

/-- **Which columns that may not be null an insertion leaves open.**  If the set is sufficient, it
is none but the key, and that only if nothing is assigned to the identifier, which has no default
and is declared to be nullable. -/
theorem leaves_open_iff (hschema : (m root).schema m = .ok schema)
    (hsufficient : s.isSufficient (m root) = true) {table : String}
    (hinsertion : s.insertion m root fresh = .ok (.insert table values)) {c : ColumnDef}
    (hc : c ∈ schema.columns) (hnull : c.nullable = false) :
    values.contains c.name = false ↔
      c.name = (m root).id ∧ s.values.contains c.name = false ∧
        (m root).default? c.name = none ∧
          ∃ p ∈ (m root).properties, p.name = c.name ∧ p.hasColumn = true ∧ p.nullable = true := by
  obtain ⟨own, hown, ha⟩ := exists_of_map_eq_ok hinsertion
  obtain ⟨-, rfl⟩ := Action.insert.inj ha
  rw [contains_fillDefaults hown, Bool.or_eq_false_iff, Option.isSome_eq_false_iff,
    Option.isNone_iff_eq_none]
  constructor
  · rintro ⟨hset, hdefault⟩
    obtain ⟨p, hp, t, ht, rfl⟩ := (Entity.mem_columns_iff hschema).mp hc
    rw [Entity.name_columnDef] at hset hdefault ⊢
    have hcolumn := Entity.hasColumn_of_columnType ht
    -- A property with column and without default is required unless it is nullable.
    have hnullable : p.nullable = true := by
      cases hdeclared : p.nullable with
      | true => rfl
      | false =>
        have hrequired : p.isRequired = true := by
          rw [Property.isRequired, hcolumn, hdeclared,
            Entity.default?_eq_none_iff.mp hdefault p hp rfl]
          rfl
        rw [isSufficient_iff.mp hsufficient p hp hrequired] at hset
        cases hset
    have hid : p.name = (m root).id := by
      by_contra hne
      rw [Entity.nullable_columnDef hne, hnullable] at hnull
      cases hnull
    exact ⟨hid, hset, hdefault, p, hp, rfl, hcolumn, hnullable⟩
  · rintro ⟨-, hset, hdefault, -⟩
    exact ⟨hset, hdefault⟩

end ValueSet

/-! #### Tags -/

namespace Tags

/-- Tags with an identifier that may be null. -/
def model : Model Unit := fun _ => ⟨"Tag", "id",
  [.asNullable (.value "id" .text), .value "label" .text,
    .withDefault (.value "color" .integer) (.integer 0)]⟩

/-- The table of the tags. -/
def schema : Schema :=
  ⟨"Tag", .ofList [{ name := "id", dataType := .text, primaryKey := true },
    { name := "label", dataType := .text }, { name := "color", dataType := .integer }]⟩

/-- A store without tags. -/
def opened : Store := ⟨(Store.open? model [()] .empty).2, ∅⟩

/-- A tag of which only the label is given. -/
def labelled : ValueSet := .ofChanges model () [.assign (.property "label") (.literal (.text "A"))]

/-- What an insertion of this tag assigns. -/
def inserted : Assignments :=
  .ofList [("color", .value (.integer 0)), ("label", .value (.text "A"))]

/-- The color of the tag is not left open. -/
theorem leaves_open_color :
    (model ()).schema model = .ok schema ∧ labelled.isSufficient (model ()) = true ∧
      labelled.insertion model () Uuid.constant = .ok (.insert "Tag" inserted) ∧
      ⟨"color", .integer, false, false⟩ ∈ schema.columns ∧ inserted.contains "color" ≠ false := by
  have hschema : (model ()).schema model = .ok schema := rfl
  have hsufficient : labelled.isSufficient (model ()) = true := by decide +kernel
  have hinsertion : labelled.insertion model () Uuid.constant = .ok (.insert "Tag" inserted) := rfl
  have hcolor : ⟨"color", .integer, false, false⟩ ∈ schema.columns :=
    SortedSet.contains_eq_true_iff.mp (by decide +kernel)
  refine ⟨hschema, hsufficient, hinsertion, hcolor, fun hopen => ?_⟩
  obtain ⟨hid, -⟩ := (ValueSet.leaves_open_iff hschema hsufficient hinsertion hcolor rfl).mp hopen
  exact absurd hid (by decide)

/-- The key is left open although it may not be null, and only the engine says so. -/
theorem insert_labelled :
    (model ()).schema model = .ok schema ∧ labelled.isSufficient (model ()) = true ∧
      labelled.insertion model () Uuid.constant = .ok (.insert "Tag" inserted) ∧
      ⟨"id", .text, false, true⟩ ∈ schema.columns ∧ inserted.contains "id" = false ∧
      Store.open? model [()] .empty = (.ok opened, opened.database) ∧
      (opened.insert model () Uuid.constant (.ofInt 1) labelled).1 =
        .error (.storage (.notNullFailed "Tag" "id")) := by
  exact ⟨rfl, by decide +kernel, rfl, SortedSet.contains_eq_true_iff.mp (by decide +kernel),
    by decide +kernel, rfl, by decide +kernel⟩

end Tags

end LiveQuery
