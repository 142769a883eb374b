import LiveQuery.Proofs.Lexemes
import LiveQuery.Proofs.Schemas

/-!
# Declaring tables

Columns are checked one by one, and the statement that creates their table lists them in an order of
its own.  Neither may depend on the order in which the columns come, or the table of one entity
could be two different tables.  What does depend on it is only which fault is reported, if there
are several.

## The order of the statement

A set of columns is kept in the order of the whole columns, the statement has the key in front and
orders by name.  The two orders agree on what is behind the key because names differ: two columns
are told apart by their names alone, so the other parts of a column never decide.

The text of the statement is not only said to be put together from the columns in that order.  It is
also read again, so that a column whose name has quotes, commas or brackets in it cannot pass for
several columns, nor several for one.

## Main definitions

* `ColumnDef.Precedes`: the order of the columns in the statement.
* `Lexeme.names`: the names read in a text.

## Main results

* `Schema.consistent_iff`: what columns have to satisfy, counted.
* `Schema.pairwise_declared`: the columns are declared in order.
* `Schema.ofColumns_order_free`: schemas and their texts do not depend on the order of the columns.
-/

namespace LiveQuery

/-! ### What is accepted -/

theorem countP_le_one_iff {α : Type} {p : α → Bool} {l : List α} :
    l.countP p ≤ 1 ↔ l.Pairwise fun a b => ¬ (p a = true ∧ p b = true) := by
  induction l with
  | nil => simp
  | cons a l ih =>
    rw [List.pairwise_cons]
    by_cases ha : p a = true
    · rw [List.countP_cons_of_pos ha]
      constructor
      · intro h
        have hnone : ∀ b ∈ l, ¬ p b = true := List.countP_eq_zero.mp (by omega)
        exact ⟨fun b hb hboth => hnone b hb hboth.2, ih.mp (by omega)⟩
      · rintro ⟨hnone, -⟩
        have hzero : l.countP p = 0 := List.countP_eq_zero.mpr fun b hb hpb => hnone b hb ⟨ha, hpb⟩
        omega
    · rw [List.countP_cons_of_neg ha, ih]
      exact ⟨fun h => ⟨fun b _ hboth => ha hboth.1, h⟩, And.right⟩

namespace Schema

variable {table : String} {columns : List ColumnDef} {s : Schema}

/-- Columns can be those of one table if their names differ, there is at most one key, and no key is
nullable. -/
theorem consistent_iff : Consistent columns ↔ (columns.map ColumnDef.name).Nodup ∧
    columns.countP ColumnDef.primaryKey ≤ 1 ∧
      ∀ c ∈ columns, c.primaryKey = true → c.nullable = false := by
  rw [List.Nodup, List.pairwise_map, countP_le_one_iff]
  exact ⟨fun h => ⟨h.names, h.keys, h.nullable⟩, fun h => ⟨h.1, h.2.1, h.2.2⟩⟩

/-- Columns are found by their names, and nothing else is found. -/
theorem column?_eq_some_iff (h : ofColumns table columns = .ok s) {n : String} {c : ColumnDef} :
    s.column? n = some c ↔ c ∈ columns ∧ c.name = n := by
  constructor
  · intro hc
    refine ⟨?_, by simpa using List.find?_some hc⟩
    exact (perm_toList_of_ofColumns h).mem_iff.mp (List.mem_of_find?_eq_some hc)
  · rintro ⟨hc, rfl⟩
    exact column?_of_mem h hc

end Schema

/-! ### The order of the columns -/

namespace ColumnDef

/-- The order of the columns in the statement that creates their table: a key is before what is no
key, and otherwise the names decide. -/
def Precedes (c d : ColumnDef) : Prop :=
  (c.primaryKey = true ∧ d.primaryKey = false) ∨ (c.primaryKey = d.primaryKey ∧ c.name < d.name)

/-- Columns of different names are in the order of their names. -/
theorem name_lt_of_compare {c d : ColumnDef} (h : compare c d = .lt) (hne : c.name ≠ d.name) :
    c.name < d.name := by
  have hlex : (compare c.name d.name).then (compareLex (compareOn dataType)
      (compareLex (compareOn nullable) (compareOn primaryKey)) c d) = .lt := h
  cases hname : compare c.name d.name with
  | lt => exact compareOfLessAndEq_eq_lt.mp hname
  | eq => exact absurd (Std.LawfulEqCmp.eq_of_compare hname) hne
  | gt =>
    rw [hname] at hlex
    cases hlex

end ColumnDef

namespace Schema

variable {table : String} {columns : List ColumnDef} {s : Schema}

/-- The columns are declared in order. -/
theorem pairwise_declared (h : ofColumns table columns = .ok s) :
    s.declared.Pairwise ColumnDef.Precedes := by
  have hperm := perm_toList_of_ofColumns h
  obtain ⟨-, hconsistent, -⟩ := ofColumns_eq_ok_iff.mp h
  have hnames := (hconsistent.perm hperm.symm).names
  have hsorted : s.columns.toList.Pairwise fun c d => c.name < d.name :=
    s.columns.sorted.imp₂ (fun c d hlt hne => ColumnDef.name_lt_of_compare hlt hne) hnames
  refine List.pairwise_append.mpr ⟨?_, ?_, ?_⟩
  · refine (hsorted.filter _).imp_of_mem fun {c d} hc hd hlt => Or.inr ⟨?_, hlt⟩
    rw [(List.mem_filter.mp hc).2, (List.mem_filter.mp hd).2]
  · refine (hsorted.filter _).imp_of_mem fun {c d} hc hd hlt => Or.inr ⟨?_, hlt⟩
    have hkeyc : c.primaryKey = false := by simpa using (List.mem_filter.mp hc).2
    have hkeyd : d.primaryKey = false := by simpa using (List.mem_filter.mp hd).2
    rw [hkeyc, hkeyd]
  · intro c hc d hd
    exact Or.inl ⟨(List.mem_filter.mp hc).2, by simpa using (List.mem_filter.mp hd).2⟩

end Schema

/-! ### Reading the statement -/

namespace Lexeme

/-- The names read in a text, in order. -/
def names (lexemes : List Lexeme) : List String :=
  lexemes.filterMap fun
    | name n => some n
    | _ => none

theorem names_append (ls ls' : List Lexeme) : names (ls ++ ls') = names ls ++ names ls' :=
  List.filterMap_append

theorem names_cons_name (n : String) (ls : List Lexeme) : names (name n :: ls) = n :: names ls := rfl

theorem names_map_other (cs : List Char) : names (cs.map other) = [] := by
  simp [names]

end Lexeme

/-- In a text some names are read, and what follows the text is read as if it stood alone. -/
def ReadsNames (text : List Char) (ns : List String) : Prop :=
  ∃ ls, Lexeme.names ls = ns ∧
    ∀ rest, Lexeme.scan? (text ++ rest) = (Lexeme.scan? rest).map (ls ++ ·)

namespace ReadsNames

variable {text text' : List Char} {ns ns' : List String}

theorem append (h : ReadsNames text ns) (h' : ReadsNames text' ns') :
    ReadsNames (text ++ text') (ns ++ ns') := by
  obtain ⟨ls, rfl, hread⟩ := h
  obtain ⟨ls', rfl, hread'⟩ := h'
  refine ⟨ls ++ ls', Lexeme.names_append ls ls', fun rest => ?_⟩
  rw [List.append_assoc, hread, hread', Option.map_map]
  refine congrArg (Option.map · _) (funext fun lexemes => ?_)
  rw [Function.comp_apply, List.append_assoc]

/-- No name is read in text without quotes and question marks. -/
theorem plain (hquote : '"' ∉ text) (hmark : '?' ∉ text) : ReadsNames text [] :=
  ⟨text.map .other, Lexeme.names_map_other text, Lexeme.scan?_plain hquote hmark⟩

/-- One name is read in a quoted name with a blank behind it. -/
theorem quoteName (n : String) (hquote : '"' ∉ text) (hmark : '?' ∉ text) :
    ReadsNames (LiveQuery.quoteName n ++ ' ' :: text) [n] := by
  refine ⟨.name n :: (' ' :: text).map .other, ?_, fun rest => ?_⟩
  · rw [Lexeme.names_cons_name, Lexeme.names_map_other]
  · have hnext : (' ' :: text ++ rest).head? ≠ some '"' := by simp
    have hquote : '"' ∉ ' ' :: text := by simpa using hquote
    have hmark : '?' ∉ ' ' :: text := by simpa using hmark
    rw [List.append_assoc, Lexeme.scan?_quoteName n hnext, Lexeme.scan?_plain hquote hmark,
      Option.map_map]
    rfl

/-- The names of several texts are read with a separator between the texts. -/
theorem intercalate {sep : List Char} (hsep : ReadsNames sep []) {α : Type} {text : α → List Char}
    {n : α → String} (htext : ∀ a, ReadsNames (text a) [n a]) (as : List α) :
    ReadsNames (sep.intercalate (as.map text)) (as.map n) := by
  induction as with
  | nil => exact plain List.not_mem_nil List.not_mem_nil
  | cons a rest ih =>
    cases rest with
    | nil => simpa [List.intercalate] using htext a
    | cons b rest =>
      have h := (htext a).append (hsep.append ih)
      simpa [List.intercalate] using h

end ReadsNames

/-- What is read in the definition of a column is its name. -/
theorem ColumnDef.readsNames_definition (c : ColumnDef) :
    ReadsNames c.definition.toList [c.name] := by
  obtain ⟨n, t, nullable, primaryKey⟩ := c
  have hplain : ∀ text : String, '"' ∉ text.toList → '?' ∉ text.toList →
      ReadsNames (String.ofList (quoteName n) ++ " " ++ text).toList [n] := by
    intro text hquote hmark
    rw [String.toList_append, String.toList_append, String.toList_ofList, List.append_assoc]
    exact ReadsNames.quoteName n hquote hmark
  have hassoc : definition ⟨n, t, nullable, primaryKey⟩ = String.ofList (quoteName n) ++ " " ++
      (t.sqlName ++ ((if nullable then "" else " NOT NULL") ++
        if primaryKey then " PRIMARY KEY" else "")) := by
    simp [definition, String.append_assoc]
  rw [hassoc]
  refine hplain _ ?_ ?_ <;> cases t <;> cases nullable <;> cases primaryKey <;> decide

namespace Schema

variable {table : String} {columns columns' : List ColumnDef} {s : Schema}

/-- What is read in the statement that creates a table: the name of the table, and then the names of
the columns as they are declared. -/
theorem scan?_createText (s : Schema) :
    ∃ lexemes, Lexeme.scan? s.createText.toList = some lexemes ∧
      Lexeme.names lexemes = s.table :: s.declared.map ColumnDef.name := by
  have hcreate : ReadsNames "CREATE TABLE ".toList [] := .plain (by decide) (by decide)
  have hopen : ReadsNames (quoteName s.table ++ " (".toList) [s.table] :=
    .quoteName s.table (by decide) (by decide)
  have hclose : ReadsNames ")".toList [] := .plain (by decide) (by decide)
  have hcomma : ReadsNames ", ".toList [] := .plain (by decide) (by decide)
  have hdefs := hcomma.intercalate ColumnDef.readsNames_definition s.declared
  obtain ⟨ls, hnames, hread⟩ := hcreate.append (hopen.append (hdefs.append hclose))
  have htext : s.createText.toList = "CREATE TABLE ".toList ++ ((quoteName s.table ++
      " (".toList) ++ (", ".toList.intercalate (s.declared.map fun c => c.definition.toList) ++
        ")".toList)) := by
    have hquoted : (String.ofList (quoteName s.table)).toList = quoteName s.table :=
      String.toList_ofList
    show ("CREATE TABLE " ++ String.ofList (quoteName s.table) ++ " (" ++
      ", ".intercalate (s.declared.map ColumnDef.definition) ++ ")").toList = _
    rw [String.toList_append, String.toList_append, String.toList_append, String.toList_append,
      hquoted, String.toList_intercalate, List.map_map, List.append_assoc, List.append_assoc,
      List.append_assoc, List.append_assoc]
    rfl
  have hall := hread []
  rw [Lexeme.scan?_nil, Option.map_some, List.append_nil ls, List.append_nil] at hall
  exact ⟨ls, htext ▸ hall, by simpa using hnames⟩

/-- Columns in another order form the same schema. -/
theorem ofColumns_eq_ok_iff_of_perm (hp : columns.Perm columns') :
    ofColumns table columns = .ok s ↔ ofColumns table columns' = .ok s :=
  ⟨fun h => ofColumns_perm h hp, fun h => ofColumns_perm h hp.symm⟩

/-- Columns are refused if they do not form a schema. -/
theorem exists_eq_error_iff :
    (∃ e, ofColumns table columns = .error e) ↔ ¬ ∃ s, ofColumns table columns = .ok s := by
  cases ofColumns table columns with
  | ok s => exact iff_of_false (by simp) (not_not_intro ⟨s, rfl⟩)
  | error e => exact iff_of_true ⟨e, rfl⟩ (by simp)

/-- **Schemas do not depend on the order of their columns.**  Whether columns form a schema, and
which one, is the same in any order.  The statement that creates the table has every column once,
the key first and then by name, and nothing else is read in it as a name.  A name finds just the
column that has it. -/
theorem ofColumns_order_free (table : String) (columns : List ColumnDef) :
    ((∃ s, ofColumns table columns = .ok s) ↔
        table ≠ "" ∧ (columns.map ColumnDef.name).Nodup ∧
          columns.countP ColumnDef.primaryKey ≤ 1 ∧
            ∀ c ∈ columns, c.primaryKey = true → c.nullable = false) ∧
      (∀ columns', columns.Perm columns' →
        (∀ s, ofColumns table columns = .ok s ↔ ofColumns table columns' = .ok s) ∧
          ((∃ e, ofColumns table columns = .error e) ↔
            ∃ e, ofColumns table columns' = .error e)) ∧
      ∀ s, ofColumns table columns = .ok s →
        (∃ cs : List ColumnDef, cs.Perm columns ∧ cs.Pairwise ColumnDef.Precedes ∧
          s.createText = "CREATE TABLE " ++ String.ofList (quoteName table) ++ " (" ++
            ", ".intercalate (cs.map ColumnDef.definition) ++ ")" ∧
          ∃ lexemes, Lexeme.scan? s.createText.toList = some lexemes ∧
            Lexeme.names lexemes = table :: cs.map ColumnDef.name) ∧
        ∀ n c, s.column? n = some c ↔ c ∈ columns ∧ c.name = n := by
  refine ⟨?_, fun columns' hp => ⟨fun s => ofColumns_eq_ok_iff_of_perm hp, ?_⟩, fun s h => ⟨?_, ?_⟩⟩
  · simp only [ofColumns_eq_ok_iff, consistent_iff]
    constructor
    · rintro ⟨s, hname, hcolumns, -⟩
      exact ⟨hname, hcolumns⟩
    · rintro ⟨hname, hcolumns⟩
      exact ⟨_, hname, hcolumns, rfl⟩
  · simp only [exists_eq_error_iff, ofColumns_eq_ok_iff_of_perm hp]
  · have htable : s.table = table := by
      obtain ⟨-, -, rfl⟩ := ofColumns_eq_ok_iff.mp h
      rfl
    refine ⟨s.declared, (perm_declared s).trans (perm_toList_of_ofColumns h), pairwise_declared h,
      ?_, ?_⟩
    · rw [← htable]
      rfl
    · rw [← htable]
      exact s.scan?_createText
  · intro n c
    exact column?_eq_some_iff h

end Schema

namespace Ships

/-- The columns of a table of ships, as they are thought of. -/
def columns : List ColumnDef :=
  [{ name := "name", dataType := .text }, { name := "built", dataType := .integer, nullable := true },
    { name := "id", dataType := .integer, primaryKey := true }]

/-- The table of the ships. -/
def schema : Schema := ⟨"Ship", .ofList columns⟩

/-- The same columns the other way round form the same table, whose key comes first. -/
theorem ofColumns_order_free_ships :
    Schema.ofColumns "Ship" columns = .ok schema ∧
      Schema.ofColumns "Ship" columns.reverse = .ok schema ∧
      schema.createText = "CREATE TABLE \"Ship\" (\"id\" INTEGER NOT NULL PRIMARY KEY, " ++
        "\"built\" INTEGER, \"name\" TEXT NOT NULL)" ∧
      schema.column? "built" =
        some { name := "built", dataType := .integer, nullable := true } := by
  have hschema : Schema.ofColumns "Ship" columns = .ok schema := rfl
  obtain ⟨-, hperm, hof⟩ := Schema.ofColumns_order_free "Ship" columns
  obtain ⟨-, hcolumn⟩ := hof schema hschema
  exact ⟨hschema, ((hperm _ columns.reverse_perm.symm).1 schema).mp hschema, by decide +kernel,
    (hcolumn _ _).mpr ⟨by decide, rfl⟩⟩

end Ships

end LiveQuery
