import LiveQuery.Proofs.Aliases
import LiveQuery.Proofs.Faults
import LiveQuery.Proofs.Writes

/-!
# Actions that do not affect a query

`Query.isAffectedBy` compares names: the tables that a query reads with the table of an action, and
for an update the columns that are read with those that are assigned.  Here it is shown to be
sound: an action that does not affect a query leaves its rows as they are, each as often as before.

The argument has two halves.  What a query reads contains nothing that the action writes by name,
so the databases before and after agree on all of it, and `Query.answer_congr` applies.  The same
tables are there before and after, so a query that cannot be run fails in the same way.

What is taken for granted about the engine is named: that it answers row by row, that joins find
their rows by keys, and that a statement writes what it names.  `Database.answersRowwise`,
`Database.isKey_of_distinct` and `Database.writesNamed` say where the engine does so.

## Main definitions

* `Database.after`: the database after an action was executed, if it could be.
* `Database.bag`: the rows of a query in no particular order.
* `Action.Writes`, `Database.WritesNamed`: the columns that an action names as written.
* `Action.Explicit`: names that make sure that these are all.

## Main results

* `Database.bag_after_of_not_affected`: actions that do not affect a query leave its rows.
-/

namespace LiveQuery

/-! ### Before and after -/

/-- The database after an action was executed at a moment.  An action that fails changes nothing. -/
def Database.after (db : Database) (moment : Binary64) (a : Action) : Database :=
  match db.execute moment a with
  | .ok (db', _) => db'
  | .error _ => db

/-- The rows of a query in no particular order, each as often as the query gives it. -/
def Database.bag (db : Database) (moment : Binary64) (q : Query) :
    Except EngineError (Multiset (List Value)) :=
  (db.run moment q).map Multiset.ofList

/-- Whether an action names a column as one that it writes.  Insertions and deletions concern all
columns of their table. -/
def Action.Writes (a : Action) (c : Column) : Prop :=
  c.table = a.table ∧
    match a with
    | update _ values _ => c.name ∈ values.keys
    | _ => True

instance : (a : Action) → (c : Column) → Decidable (a.Writes c)
  | .update _ values _, c => inferInstanceAs (Decidable (_ ∧ c.name ∈ values.keys))
  | .insert _ _, _ => inferInstanceAs (Decidable (_ ∧ True))
  | .delete _ _, _ => inferInstanceAs (Decidable (_ ∧ True))

/-- An action names all that it writes of what a query reads: it leaves the other columns alone. -/
def Action.Explicit (a : Action) (db : Database) (q : Query) : Prop :=
  ∀ t ∈ db.table? a.table, ∀ c ∈ q.columns.toList, ¬ a.Writes c → a.Spares t c

instance (a : Action) (db : Database) (q : Query) : Decidable (a.Explicit db q) :=
  inferInstanceAs (Decidable (∀ t ∈ db.table? a.table, ∀ c ∈ q.columns.toList, _ → _))

/-- What an action names does not depend on rows. -/
theorem Action.Explicit.congr {a : Action} {db db' : Database} {q : Query}
    (h : a.Explicit db q) (hschema : db.SameSchema db') : a.Explicit db' q := by
  intro t' ht' c hc hwrites
  have hbare := hschema a.table
  rw [Option.mem_def.mp ht', Option.map_some, Option.map_eq_some_iff] at hbare
  obtain ⟨t, ht, hsame⟩ := hbare
  have hspares := h t ht c hc hwrites
  have hnumber : t.isRowNumber = t'.isRowNumber := by
    change t.bare.isRowNumber = t'.bare.isRowNumber
    rw [hsame]
  cases a with
  | update table values predicate =>
    refine hspares.imp_right fun hkeeps k hk => ?_
    rw [← hnumber]
    exact hkeeps k hk
  | insert table values => exact hspares
  | delete table predicate => exact hspares

/-- Among the columns that a query reads, an action writes only those that it names.  Names are
compared as they are written, in queries as in actions.  The engine folds their case, so if one
table goes by two spellings, as when tables `Note` and `note` are opened together, an action on one
spelling writes what a query reads under the other, and this does not hold. -/
def Database.WritesNamed (db : Database) (moment : Binary64) (a : Action) (q : Query) : Prop :=
  db.AgreesOn (fun c => c ∈ q.columns ∧ ¬ a.Writes c) (db.after moment a)

theorem Database.after_sameSchema (db : Database) (moment : Binary64) (a : Action) :
    db.SameSchema (db.after moment a) := by
  unfold after
  split
  next h => exact execute_sameSchema h
  next => exact SameSchema.refl db

/-- A query that has an answer gives it, unless there is a fault in the query. -/
theorem Database.bag_eq {db : Database} {q : Query} {moment : Binary64}
    {answer : Multiset (List Value)}
    (h : ∀ rows, db.run moment q = .ok rows → (rows : Multiset (List Value)) = answer) :
    db.bag moment q =
      match q.fault? db with
      | some e => .error e
      | none => .ok answer := by
  rw [bag]
  cases hfault : q.fault? db with
  | some e =>
    have hrun : db.run moment q = .error e := by rw [run, hfault]
    rw [hrun]
    rfl
  | none =>
    have hrun : db.run moment q = .ok ((q.frames db moment).map (db.resultValues moment q)) := by
      rw [run, hfault]
    rw [hrun, ← h _ hrun]
    rfl

/-- Databases that agree on what a query reads give the same rows for it. -/
theorem Database.bag_congr {db db' : Database} {q : Query} (hschema : db.SameSchema db')
    (hanswers : db.AnswersRowwise q) (hanswers' : db'.AnswersRowwise q)
    (hkeys : db.JoinsByKey q) (hagree : db.AgreesOn (· ∈ q.columns) db')
    (hnow : q.nowFree = true) (moment moment' : Binary64) :
    db.bag moment q = db'.bag moment' q := by
  rw [bag_eq (hanswers moment), bag_eq (hanswers' moment'), Query.fault?_congr hschema,
    Query.answer_congr hagree hkeys hnow moment moment']

/-! ### Where the assumptions hold -/

theorem Operand.equals_eq_true_iff {a b : Operand} :
    a.equals b = true ↔
      a.datum.isNull = false ∧ b.datum.isNull = false ∧ a.compare b = .eq := by
  have hnull : Datum.null.truth = none := rfl
  unfold equals
  simp only [BinaryOp.apply, comparison]
  cases ha : a.datum.isNull <;> cases hb : b.datum.isNull
  · simp [Datum.truth_ofTruth]
  · simp [hnull]
  · simp [hnull]
  · simp [hnull]

/-- The number that a datum is compared by, in units of the least positive real. -/
def Datum.magnitude : Datum → Int
  | integer i => i.toInt * Binary64.one
  | real x => x.multiple
  | _ => 0

/-- The bytes that a datum is compared by. -/
def Datum.bytes : Datum → List UInt8
  | text b => b
  | blob b => b
  | _ => []

/-- Data are equal in the order of the engine if they are of one kind and have the same number and
the same bytes. -/
theorem Datum.compare_eq_eq_iff {a b : Datum} : a.compare b = .eq ↔
    a.kindRank = b.kindRank ∧ a.magnitude = b.magnitude ∧ a.bytes = b.bytes := by
  have hnumbers : ∀ m n : Int, compare m n = .eq ↔ 1 = 1 ∧ m = n ∧ ([] : List UInt8) = [] := by
    simp
  have hbytes : ∀ (k : Nat) (s t : List UInt8),
      compare s t = .eq ↔ k = k ∧ (0 : Int) = 0 ∧ s = t := by simp
  cases a <;> cases b
  case integer.integer i j =>
    refine ⟨fun h => ?_, fun ⟨_, hnumber, _⟩ => ?_⟩
    · have hcompare : compare i j = .eq := h
      obtain rfl := Std.LawfulEqCmp.eq_of_compare hcompare
      exact ⟨rfl, rfl, rfl⟩
    · have hone : (Binary64.one : Int) ≠ 0 :=
        Int.natCast_ne_zero.mpr (Nat.ne_of_gt Binary64.one_pos)
      obtain rfl := Int64.toInt_inj.mp (Int.eq_of_mul_eq_mul_right hone hnumber)
      exact Std.ReflOrd.compare_self
  case integer.real i x => exact hnumbers _ _
  case real.integer x i => exact hnumbers _ _
  case real.real x y => exact hnumbers _ _
  case text.text s t => exact hbytes 2 s t
  case blob.blob s t => exact hbytes 3 s t
  case null.null => exact iff_of_true rfl ⟨rfl, rfl, rfl⟩
  all_goals exact iff_of_false (fun h => by cases h) (fun h => by cases h.1)

/-- Operands from columns of one type are compared in one form. -/
theorem Operand.exists_form (type? : Option DataType) : ∃ form : Datum → Datum, ∀ a b : Operand,
    a.type? = type? → b.type? = type? →
      a.compare b = (form a.datum).compare (form b.datum) := by
  suffices h : ∃ form : Datum → Datum, ∀ d e : Datum,
      Operand.compare ⟨d, type?⟩ ⟨e, type?⟩ = (form d).compare (form e) by
    obtain ⟨form, hform⟩ := h
    refine ⟨form, ?_⟩
    rintro ⟨d, _⟩ ⟨e, _⟩ rfl rfl
    exact hform d e
  match type? with
  | none => exact ⟨id, fun _ _ => rfl⟩
  | some .integer => exact ⟨Datum.numeric, fun _ _ => rfl⟩
  | some .real => exact ⟨Datum.numeric, fun _ _ => rfl⟩
  | some .text => exact ⟨id, fun _ _ => rfl⟩
  | some .blob => exact ⟨id, fun _ _ => rfl⟩

/-- What equals the same operand from a column of one type is equal. -/
theorem Operand.equals_of_equals {a b x : Operand} (ha : a.type? = x.type?)
    (hb : b.type? = x.type?) (hax : a.equals x = true) (hbx : b.equals x = true) :
    a.equals b = true := by
  obtain ⟨form, hform⟩ := exists_form x.type?
  rw [equals_eq_true_iff, hform _ _ ha rfl, Datum.compare_eq_eq_iff] at hax
  rw [equals_eq_true_iff, hform _ _ hb rfl, Datum.compare_eq_eq_iff] at hbx
  rw [equals_eq_true_iff, hform _ _ ha hb, Datum.compare_eq_eq_iff]
  obtain ⟨hanull, -, harank, hanumber, habytes⟩ := hax
  obtain ⟨hbnull, -, hbrank, hbnumber, hbbytes⟩ := hbx
  exact ⟨hanull, hbnull, harank.trans hbrank.symm, hanumber.trans hbnumber.symm,
    habytes.trans hbbytes.symm⟩

theorem length_filter_le_one {α : Type} {p : α → Bool} {l : List α}
    (h : l.Pairwise fun a b => p a = true → ¬ p b = true) : (l.filter p).length ≤ 1 := by
  have hkept := h.filter p
  match hl : l.filter p with
  | [] => exact Nat.zero_le 1
  | [_] => exact Nat.le_refl 1
  | a :: b :: rest =>
    have ha : a ∈ l.filter p := by simp [hl]
    have hb : b ∈ l.filter p := by simp [hl]
    rw [hl] at hkept
    exact absurd (List.of_mem_filter hb)
      ((List.pairwise_cons.mp hkept).1 b List.mem_cons_self (List.of_mem_filter ha))

/-- **Distinct values are a key** for a column of the same type, as joins in compiled paths have it:
what equals both of two values would make them equal. -/
theorem Database.isKey_of_distinct {db : Database} {source target : Column}
    (type? : Option DataType)
    (hsource : ∀ s ∈ db.rows source.table source.table, (s.read source.name).type? = type?)
    (htarget : ∀ t ∈ db.rows target.table target.table, (t.read target.name).type? = type?)
    (hdistinct : (db.rows target.table target.table).Pairwise fun t t' =>
      (t.read target.name).equals (t'.read target.name) = false) :
    db.IsKey source target := by
  intro s hs
  refine length_filter_le_one (hdistinct.imp_of_mem fun ht ht' hne h h' => ?_)
  have hequal := Operand.equals_of_equals ((htarget _ ht).trans (hsource s hs).symm)
    ((htarget _ ht').trans (hsource s hs).symm) h h'
  rw [hne] at hequal
  cases hequal

-- It has to be the same type: the texts `1` and `01` differ, and the integer 1 equals both.
example :
    Operand.equals ⟨.text [49], some .text⟩ ⟨.text [48, 49], some .text⟩ = false ∧
      Operand.equals ⟨.text [49], some .text⟩ ⟨.integer 1, some .integer⟩ = true ∧
      Operand.equals ⟨.text [48, 49], some .text⟩ ⟨.integer 1, some .integer⟩ = true := by
  decide +kernel

/-- An action that names all that it writes writes what it names. -/
theorem Database.writesNamed {db : Database} {q : Query} {a : Action} (hnum : db.Numbered)
    (hexplicit : a.Explicit db q) (moment : Binary64) : db.WritesNamed moment a q := by
  unfold WritesNamed after
  split
  next h => exact execute_agreesOn h hnum fun t ht c hc => hexplicit t ht c hc.1 hc.2
  next => exact AgreesOn.refl db _

/-! ### Soundness -/

/-- An action names none of the columns that are read by a query it does not affect. -/
theorem Query.not_writes_of_not_affected {q : Query} {a : Action} (h : q.isAffectedBy a = false)
    {c : Column} (hc : c ∈ q.columns) : ¬ a.Writes c := by
  rintro ⟨htable, hname⟩
  have hread : q.tables.contains a.table = true :=
    SortedSet.contains_eq_true_iff.mpr (mem_tables.mpr ⟨c, hc, htable⟩)
  unfold isAffectedBy at h
  rw [hread, Bool.true_and] at h
  cases a with
  | insert table values => cases h
  | delete table predicate => cases h
  | update table values predicate =>
    obtain rfl : c.table = table := htable
    have hcolumn : (q.columnsOf c.table).contains c.name = true :=
      SortedSet.contains_eq_true_iff.mpr (mem_columnsOf.mpr hc)
    rw [List.any_eq_false] at h
    exact h c.name hname hcolumn

/-- An action leaves everything alone that is read by a query it does not affect. -/
theorem Database.agreesOn_after {db : Database} {q : Query} {a : Action} {moment : Binary64}
    (haffected : q.isAffectedBy a = false) (hwrites : db.WritesNamed moment a q) :
    db.AgreesOn (· ∈ q.columns) (db.after moment a) := by
  have hreads : (fun c => c ∈ q.columns ∧ ¬ a.Writes c) = (· ∈ q.columns) := by
    funext c
    refine propext (and_iff_left_of_imp fun hc => ?_)
    exact Query.not_writes_of_not_affected haffected hc
  exact hreads ▸ hwrites

/-- **Soundness of the change analysis.**  If an action does not affect a query that does not ask
for the moment, executing the action leaves the rows of the query as they are, provided that the
query is answered row by row, no two rows fit a join, and the action writes what it names. -/
theorem Database.bag_after_of_not_affected {db : Database} {q : Query} {a : Action}
    {moment : Binary64} (haffected : q.isAffectedBy a = false) (hnow : q.nowFree = true)
    (hanswers : db.AnswersRowwise q) (hanswers' : (db.after moment a).AnswersRowwise q)
    (hkeys : db.JoinsByKey q) (hwrites : db.WritesNamed moment a q) (earlier later : Binary64) :
    db.bag earlier q = (db.after moment a).bag later q :=
  bag_congr (db.after_sameSchema moment a) hanswers hanswers' hkeys
    (agreesOn_after haffected hwrites) hnow earlier later

/-! ### An example -/

namespace Library

/-- Two authors, whose keys are the texts `1` and `01`, and a book by each of them. -/
def coded : Database where
  tables := .ofList
    [("author", ⟨"Author", [⟨"id", "TEXT", false, 1⟩, ⟨"name", "TEXT", true, 0⟩],
        .ofList [(1, .ofList [("id", .text [49]), ("name", .text [65])]),
          (2, .ofList [("id", .text [48, 49]), ("name", .text [66])])], "", 2⟩),
      ("book", ⟨"Book", [⟨"title", "TEXT", true, 0⟩, ⟨"author", "TEXT", true, 0⟩,
          ⟨"isbn", "TEXT", true, 0⟩],
        .ofList [(1, .ofList [("title", .text [67]), ("author", .text [48, 49]), ("isbn", .null)]),
          (2, .ofList [("title", .text [68]), ("author", .text [49]), ("isbn", .null)])], "", 4⟩)]
  keyed := by decide

/-- The titles of the books with the names of their authors. -/
def titles : Query where
  results := [⟨.column ⟨"Book", "title"⟩, some "title"⟩,
    ⟨.join ⟨"Book", "author"⟩ ⟨"Author", "id"⟩ (.column ⟨"Author", "name"⟩), some "author"⟩]
  predicates := []
  order := []

/-- Gives all books the same number. -/
def renumber : Action := .update "Book" (.ofList [("isbn", .value (.text "0"))]) none

theorem namesApart : NamesApart (· ∈ titles.tables) :=
  namesApart_of_toList (by decide) (by decide)

theorem answersRowwise (db : Database) : db.AnswersRowwise titles :=
  db.answersRowwise (by decide) (by decide) namesApart

/-- The keys would be equal as numbers, but the books refer to them by texts. -/
theorem joinsByKey_coded : coded.JoinsByKey titles := by
  have hjoins : ∀ e ∈ titles.exprs, ∀ k ∈ e.joinKeys,
      k = (⟨"Book", "author"⟩, ⟨"Author", "id"⟩) := by decide
  intro e he k hk
  rw [hjoins e he k hk]
  exact Database.isKey_of_distinct (some .text) (by decide +kernel) (by decide +kernel)
    (by decide +kernel)

theorem writesNamed_coded (moment : Binary64) : coded.WritesNamed moment renumber titles :=
  Database.writesNamed (Database.numbered_of_toList (by decide +kernel)) (by decide +kernel) moment

end Library

/-- Numbering the books changes the database, but not their titles and authors. -/
theorem Library.bag_renumber :
    coded.after (.ofInt 2) renumber ≠ coded ∧
      coded.bag (.ofInt 1) titles = (coded.after (.ofInt 2) renumber).bag (.ofInt 3) titles := by
  refine ⟨by decide +kernel, ?_⟩
  exact Database.bag_after_of_not_affected (by decide) (by decide) (answersRowwise _)
    (answersRowwise _) joinsByKey_coded (writesNamed_coded _) _ _

end LiveQuery
