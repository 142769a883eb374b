import LiveQuery.Document.Interchange

/-!
# Documents that read back

The readers take more documents than the writers make: an integer where a real belongs, a record
as the list of its parts, a missing field for null.  None of this leniency meets a document that
was written, because an alternative is named before its content and what may be absent is never
null when it is there.  So all data is read back from its own document, with one exception: a real
that is not finite is written as null, and nothing that contains one reads back.

As a document says how it is read, two data of one kind have the same document only if both
contain a real that is not finite.

## Main definitions

* `Value.isFinite`, `Expr.isFinite`, `Query.isFinite`, `Action.isFinite`: every real is finite.
* `Interchange.ReadsBack`: documents read back exactly for the data that passes a test.
* `Interchange.Faithful`: documents are read back, and are those of no other data.

## Main results

* `Interchange.faithful_documents`: the documents of finite data are faithful.
-/

namespace LiveQuery

/-! ### Finite data -/

/-- Whether the value is not an infinite real or a NaN. -/
def Value.isFinite : Value → Bool
  | real x => x.isFinite
  | _ => true

mutual

/-- Whether all constants of an expression are finite. -/
def Expr.isFinite : Expr → Bool
  | .value v => v.isFinite
  | .column _ => true
  | .unary _ e => e.isFinite
  | .binary _ l r => l.isFinite && r.isFinite
  | .call _ args => Expr.areFinite args
  | .join _ _ inner => inner.isFinite

/-- Whether all constants of some expressions are finite. -/
def Expr.areFinite : List Expr → Bool
  | [] => true
  | e :: es => e.isFinite && Expr.areFinite es

end

/-- Whether all constants of a query are finite. -/
def Query.isFinite (q : Query) : Bool := q.exprs.all Expr.isFinite

/-- Whether all constants of an action are finite. -/
def Action.isFinite : Action → Bool
  | insert _ values => values.values.all Expr.isFinite
  | update _ values predicate => values.values.all Expr.isFinite && predicate.all Expr.isFinite
  | delete _ predicate => predicate.all Expr.isFinite

theorem Expr.areFinite_eq_all (es : List Expr) : areFinite es = es.all isFinite := by
  induction es with
  | nil => rfl
  | cons e es ih => rw [areFinite, List.all_cons, ih]

namespace Interchange

variable {α β : Type}

/-! ### Reading back -/

/-- Data is read back from its document exactly if it passes a test. -/
def ReadsBack [Interchange α] (fine : α → Bool) : Prop :=
  ∀ a, ofDocument? (toDocument a) = if fine a then some a else none

/-- Data that passes a test is read back from its document, and only this data is: no other data
has the document. -/
structure Faithful [Interchange α] (fine : α → Bool) : Prop where
  /-- Exactly the data that passes the test is read back. -/
  reads : ReadsBack fine
  /-- The document belongs to no other data. -/
  distinct : ∀ a b, fine a = true → toDocument a = toDocument b → a = b

/-- What reads back has a document of its own. -/
theorem ReadsBack.faithful [Interchange α] {fine : α → Bool} (h : ReadsBack fine) :
    Faithful fine := by
  refine ⟨h, fun a b ha hab => ?_⟩
  have hb : some a = if fine b then some b else none := by
    rw [← h b, ← hab, h a, if_pos ha]
  by_cases hfine : fine b = true
  · rw [if_pos hfine] at hb
    exact Option.some.inj hb
  · rw [if_neg hfine] at hb
    cases hb

/-- Data that always reads back. -/
theorem readsBack_of_forall [Interchange α]
    (h : ∀ a : α, ofDocument? (toDocument a) = some a) : ReadsBack fun _ : α => true := h

/-- Reading one more part goes on only if the part was read. -/
theorem bind_ite_some (p : Bool) (a : α) (f : α → Option β) :
    (if p then some a else none).bind f = if p then f a else none := by
  cases p <;> rfl

/-- Two parts are read if each is. -/
theorem ite_ite_none (p q : Bool) (a : α) :
    (if p then if q then some a else none else none) = if p && q then some a else none := by
  cases p <;> rfl

/-! ### Plain data -/

@[simp] theorem ofDocument?_string (s : String) : ofDocument? (toDocument s) = some s := rfl

@[simp] theorem ofDocument?_bool (b : Bool) : ofDocument? (toDocument b) = some b := rfl

@[simp] theorem ofDocument?_int64 (i : Int64) : ofDocument? (toDocument i) = some i :=
  narrow?_toInt i

@[simp] theorem ofDocument?_uint8 (b : UInt8) : ofDocument? (toDocument b) = some b := by
  have hlow : (0 : Int) ≤ b.toNat := Int.natCast_nonneg _
  have hhigh : (b.toNat : Int) < 256 := Int.ofNat_lt.mpr b.toNat_lt
  change (if 0 ≤ (b.toNat : Int) ∧ (b.toNat : Int) < 256 then some _ else none) = _
  rw [if_pos ⟨hlow, hhigh⟩, Int.toNat_natCast, UInt8.ofNat_toNat]

theorem binary64_readsBack : ReadsBack Binary64.isFinite := by
  intro x
  change ofDocument? (if x.isFinite then _ else _) = _
  split <;> rfl

/-! ### Lists, options and maps -/

/-- Items that are read back one by one are read back as a list. -/
theorem mapM_map_eq_ite {form : α → β} {read : β → Option α} {fine : α → Bool} {l : List α}
    (h : ∀ a ∈ l, read (form a) = if fine a then some a else none) :
    (l.map form).mapM read = if l.all fine then some l else none := by
  induction l with
  | nil => rfl
  | cons a l ih =>
    obtain ⟨ha, hl⟩ := List.forall_mem_cons.mp h
    rw [List.map_cons, List.mapM_cons, ha, ih hl, List.all_cons]
    cases fine a
    · rfl
    · cases l.all fine <;> rfl

section Containers

variable [Interchange α] {fine : α → Bool}

theorem ReadsBack.list (h : ReadsBack fine) : ReadsBack fun l : List α => l.all fine :=
  fun _ => mapM_map_eq_ite fun a _ => h a

theorem ofDocument?_list_of_forall (h : ∀ a : α, ofDocument? (toDocument a) = some a)
    (l : List α) : ofDocument? (toDocument l) = some l := by
  rw [(readsBack_of_forall h).list l, if_pos (List.all_eq_true.mpr fun _ _ => rfl)]

/-- What may be absent reads back, provided that nothing present is written as null. -/
theorem ReadsBack.option (h : ReadsBack fine) (hnull : ∀ a : α, toDocument a ≠ .null) :
    ReadsBack fun o : Option α => o.all fine := by
  intro o
  cases o with
  | none => rfl
  | some a =>
    have hread : (ofDocument? (toDocument (some a)) : Option (Option α)) =
        (ofDocument? (toDocument a)).map some := by
      change (ofDocument? (toDocument a) : Option (Option α)) = _
      cases hd : toDocument a with
      | null => exact absurd hd (hnull a)
      | _ => rfl
    rw [hread, h a]
    change _ = if fine a then some (some a) else none
    cases fine a <;> rfl

theorem ReadsBack.sortedMap (h : ReadsBack fine) :
    ReadsBack fun m : SortedMap String α => m.values.all fine := by
  intro m
  have hentries : (m.toList.map fun e => (e.1, toDocument e.2)).mapM
      (fun f => (ofDocument? f.2).map fun a => (f.1, a)) =
      if m.toList.all (fun e => fine e.2) then some m.toList else none := by
    refine mapM_map_eq_ite fun e _ => ?_
    rw [h e.2]
    cases fine e.2 <;> rfl
  have hvalues : m.values.all fine = m.toList.all fun e => fine e.2 := List.all_map
  change Option.map SortedMap.ofList (List.mapM _ _) = if m.values.all fine then some m else none
  rw [hentries, hvalues]
  split
  · exact congrArg some (SortedMap.ofList_toList m)
  · rfl

end Containers

/-! ### Values -/

theorem value_readsBack : ReadsBack Value.isFinite := by
  intro v
  cases v with
  | null => rfl
  | integer i => exact congrArg (Option.map Value.integer) (ofDocument?_int64 i)
  | real x =>
    refine (congrArg (Option.map Value.real) (binary64_readsBack x)).trans ?_
    rw [Value.isFinite]
    split <;> rfl
  | text s => rfl
  | blob bytes =>
    exact congrArg (Option.map Value.blob) (ofDocument?_list_of_forall ofDocument?_uint8 bytes)

/-! ### Expressions -/

@[simp] theorem ofDocument?_unaryOp (op : UnaryOp) : ofDocument? (toDocument op) = some op := by
  cases op <;> rfl

@[simp] theorem ofDocument?_binaryOp (op : BinaryOp) : ofDocument? (toDocument op) = some op := by
  cases op <;> rfl

@[simp] theorem ofDocument?_builtin (f : Builtin) : ofDocument? (toDocument f) = some f := by
  cases f <;> rfl

@[simp] theorem ofDocument?_column (c : Column) : ofDocument? (toDocument c) = some c := rfl

theorem exprDocuments_eq_map (es : List Expr) : exprDocuments es = es.map exprDocument := by
  induction es with
  | nil => rfl
  | cons e es ih => rw [exprDocuments, List.map_cons, ih]

theorem exprsOf?_eq_mapM (ds : List Document) : exprsOf? ds = ds.mapM exprOf? := by
  induction ds with
  | nil => rfl
  | cons d ds ih => rw [exprsOf?, List.mapM_cons, ih]

/-- The arguments of a call read back if each one does. -/
theorem exprsOf?_exprDocuments {args : List Expr}
    (h : ∀ a ∈ args, ofDocument? (toDocument a) = if a.isFinite then some a else none) :
    exprsOf? (exprDocuments args) = if Expr.areFinite args then some args else none := by
  rw [exprsOf?_eq_mapM, exprDocuments_eq_map, Expr.areFinite_eq_all]
  exact mapM_map_eq_ite h

theorem expr_readsBack : ReadsBack Expr.isFinite := by
  intro e
  induction e using Expr.induct with
  | value v =>
    refine (congrArg (Option.map Expr.value) (value_readsBack v)).trans ?_
    rw [Expr.isFinite]
    split <;> rfl
  | column c => rfl
  | unary op e ih =>
    change (ofDocument? (toDocument op)).bind (fun op =>
      (ofDocument? (toDocument e)).bind fun e => some (Expr.unary op e)) = _
    rw [Expr.isFinite]
    simp only [ofDocument?_unaryOp, ih, bind_ite_some, Option.bind_some]
  | binary op l r ihl ihr =>
    change (ofDocument? (toDocument op)).bind (fun op => (ofDocument? (toDocument l)).bind fun l =>
      (ofDocument? (toDocument r)).bind fun r => some (Expr.binary op l r)) = _
    rw [Expr.isFinite]
    simp only [ofDocument?_binaryOp, ihl, ihr, bind_ite_some, ite_ite_none, Option.bind_some]
  | call f args ih =>
    change (ofDocument? (toDocument f)).bind (fun f =>
      (exprsOf? (exprDocuments args)).bind fun args => some (Expr.call f args)) = _
    rw [Expr.isFinite]
    simp only [ofDocument?_builtin, exprsOf?_exprDocuments ih, bind_ite_some, Option.bind_some]
  | join source target inner ih =>
    change (ofDocument? (toDocument source)).bind (fun source =>
      (ofDocument? (toDocument target)).bind fun target =>
        (ofDocument? (toDocument inner)).bind fun inner => some (Expr.join source target inner)) = _
    rw [Expr.isFinite]
    simp only [ofDocument?_column, ih, bind_ite_some, Option.bind_some]

theorem toDocument_expr_ne_null (e : Expr) : toDocument e ≠ .null := by
  cases e <;> exact nofun

/-! ### Queries -/

@[simp] theorem ofDocument?_direction (d : Direction) : ofDocument? (toDocument d) = some d := by
  cases d <;> rfl

theorem sortKey_readsBack : ReadsBack fun k : SortKey => k.expr.isFinite := by
  intro k
  change (ofDocument? (toDocument k.expr)).bind (fun expr =>
    (ofDocument? (toDocument k.direction)).bind fun direction => some (SortKey.mk expr direction)) = _
  simp only [expr_readsBack k.expr, ofDocument?_direction, bind_ite_some, Option.bind_some]

/-- A label reads back, whether or not it is there. -/
@[simp] theorem ofDocument?_label (label : Option String) :
    ofDocument? (toDocument label) = some label := by
  cases label <;> rfl

theorem resultColumn_readsBack : ReadsBack fun r : ResultColumn => r.expr.isFinite := by
  intro r
  change (ofDocument? (toDocument r.expr)).bind (fun expr =>
    (ofDocument? (toDocument r.label)).bind fun label => some (ResultColumn.mk expr label)) = _
  simp only [expr_readsBack r.expr, ofDocument?_label, bind_ite_some, Option.bind_some]

theorem query_readsBack : ReadsBack Query.isFinite := by
  intro q
  change (ofDocument? (toDocument q.results)).bind (fun results =>
    (ofDocument? (toDocument q.predicates)).bind fun predicates =>
      (ofDocument? (toDocument q.order)).bind fun order =>
        some (Query.mk results predicates order)) = _
  have hfine : q.isFinite = (q.results.all (fun r => r.expr.isFinite) &&
      (q.predicates.all Expr.isFinite && q.order.all fun k => k.expr.isFinite)) := by
    simp only [Query.isFinite, Query.exprs, List.all_append, List.all_map, Bool.and_assoc]
    rfl
  simp only [resultColumn_readsBack.list q.results, expr_readsBack.list q.predicates,
    sortKey_readsBack.list q.order, bind_ite_some, ite_ite_none, hfine]

/-! ### Actions -/

/-- The document of a predicate is null only if there is no predicate. -/
theorem predicate_readsBack : ReadsBack fun p : Option Expr => p.all Expr.isFinite :=
  expr_readsBack.option toDocument_expr_ne_null

theorem assignments_readsBack : ReadsBack fun m : Assignments => m.values.all Expr.isFinite :=
  expr_readsBack.sortedMap

theorem action_readsBack : ReadsBack Action.isFinite := by
  intro a
  cases a with
  | insert table values =>
    change (ofDocument? (toDocument table)).bind (fun table =>
      (ofDocument? (toDocument values)).bind fun values => some (Action.insert table values)) = _
    rw [Action.isFinite]
    simp only [ofDocument?_string, assignments_readsBack values, bind_ite_some, Option.bind_some]
  | update table values predicate =>
    change (ofDocument? (toDocument table)).bind (fun table =>
      (ofDocument? (toDocument values)).bind fun values =>
        (ofDocument? (toDocument predicate)).bind fun predicate =>
          some (Action.update table values predicate)) = _
    rw [Action.isFinite]
    simp only [ofDocument?_string, assignments_readsBack values, predicate_readsBack predicate,
      bind_ite_some, ite_ite_none, Option.bind_some]
  | delete table predicate =>
    change (ofDocument? (toDocument table)).bind (fun table =>
      (ofDocument? (toDocument predicate)).bind fun predicate =>
        some (Action.delete table predicate)) = _
    rw [Action.isFinite]
    simp only [ofDocument?_string, predicate_readsBack predicate, bind_ite_some, Option.bind_some]

/-! ### Schemas -/

@[simp] theorem ofDocument?_dataType (t : DataType) : ofDocument? (toDocument t) = some t := by
  cases t <;> rfl

@[simp] theorem ofDocument?_columnDef (c : ColumnDef) : ofDocument? (toDocument c) = some c := by
  change (ofDocument? (toDocument c.name)).bind (fun name =>
    (ofDocument? (toDocument c.dataType)).bind fun dataType =>
      (ofDocument? (toDocument c.nullable)).bind fun nullable =>
        (ofDocument? (toDocument c.primaryKey)).bind fun primaryKey =>
          some (ColumnDef.mk name dataType nullable primaryKey)) = _
  simp only [ofDocument?_string, ofDocument?_dataType, ofDocument?_bool, Option.bind_some]

/-- A schema reads back whether or not its columns are sound. -/
theorem schema_readsBack : ReadsBack fun _ : Schema => true := by
  refine readsBack_of_forall fun s => ?_
  change (ofDocument? (toDocument s.table)).bind (fun table =>
    (ofDocument? (toDocument s.columns.toList)).bind fun columns =>
      some (Schema.mk table (.ofList columns))) = _
  simp only [ofDocument?_string, ofDocument?_list_of_forall ofDocument?_columnDef,
    Option.bind_some, SortedSet.ofList_toList]

/-! ### All documents -/

/-- **Documents are faithful.**  A value, expression, query or action is read back from its
document, word for word in its reals, exactly if its reals are finite, and a schema always; a
document that reads back is that of no other data of its kind. -/
theorem faithful_documents :
    Faithful Value.isFinite ∧ Faithful Expr.isFinite ∧ Faithful Query.isFinite ∧
      Faithful Action.isFinite ∧ Faithful fun _ : Schema => true :=
  ⟨value_readsBack.faithful, expr_readsBack.faithful, query_readsBack.faithful,
    action_readsBack.faithful, schema_readsBack.faithful⟩

/-- The two zeros have two documents, and each is read back with its sign. -/
theorem faithful_documents_zeros :
    ofDocument? (toDocument (Value.real ⟨0x8000000000000000⟩)) =
        some (Value.real ⟨0x8000000000000000⟩) ∧
      toDocument (Value.real ⟨0x8000000000000000⟩) ≠ toDocument (Value.real ⟨0⟩) := by
  obtain ⟨hreads, hdistinct⟩ := faithful_documents.1
  refine ⟨hreads _, fun h => ?_⟩
  have hsame : Value.real ⟨0x8000000000000000⟩ = Value.real ⟨0⟩ := hdistinct _ _ (by decide) h
  exact absurd hsame (by decide)

end Interchange

end LiveQuery
