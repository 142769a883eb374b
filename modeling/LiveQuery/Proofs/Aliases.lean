import LiveQuery.Proofs.Rowwise

/-!
# Aliases stand for their tables

In a statement every join has an alias, and the engine looks columns up by aliases, clause by
clause.  Here it is shown that this comes to reading columns by the names of their tables, the
innermost join to a table first, so that the engine answers row by row in the sense of
`Database.AnswersRowwise`.

Two things could go wrong.  An alias could be taken for another alias or for a table: its number
tells it from other aliases, and the sign before the number from tables without that sign in their
names.  A column that a table does not have could be found in a clause further out: no table there
goes by the same name, if the names of the tables differ by more than case.

Aggregates are left out: they are taken over rows, not on one.

## Main definitions

* `Expr.scalar`: an expression without aggregates.
* `Query.NamesApart`: what the names of the tables have to satisfy.
* `Frame.Stands`: frames with aliases that stand for a row with names of tables.

## Main results

* `Frame.Stands.operand`: looking up is reading.
* `Expr.eval_eq_onRow`: expressions are evaluated row by row.
* `Database.answersRowwise`: so are queries.
-/

namespace LiveQuery

/-! ### Numbers in names -/

namespace Caseless

theorem hash_mem_fold {s : String} : '#' ∈ (fold s).toList ↔ '#' ∈ s.toList := by
  simp [toList_fold, toLower_eq_iff (show '#'.isAlpha = false from rfl)]

/-- Digits have no case. -/
theorem toLower_digit {c : Char} (h : c.isDigit = true) : c.toLower = c := by
  have hhigh : c.val ≤ '9'.val := by
    simp only [Char.isDigit, Bool.and_eq_true, decide_eq_true_eq] at h
    exact h.2
  have hupper : ¬ (c.val ≥ 'A'.val ∧ c.val ≤ 'Z'.val) := by
    rintro ⟨hlow, -⟩
    exact absurd (UInt32.le_trans hlow hhigh) (by decide)
  exact dif_neg hupper

end Caseless

/-- The text of a number is its digits. -/
theorem toList_joinAlias (t : String) (k : Nat) :
    (joinAlias t k).toList = t.toList ++ '#' :: Nat.toDigits 10 k := by
  simp [joinAlias]

namespace Catalog

/-- The sign of aliases is in the key of a name exactly if it is in the name. -/
theorem hash_mem_key {t : String} : '#' ∈ (key t).toList ↔ '#' ∈ t.toList := by
  have hnot : ∀ names : List String, (∀ name ∈ names, '#' ∉ name.toList) →
      names.contains (Caseless.fold t) = true → '#' ∉ t.toList := by
    intro names hnames h
    rw [← Caseless.hash_mem_fold]
    exact hnames _ (List.contains_iff_mem.mp h)
  simp only [key]
  split
  next h => exact iff_of_false (by decide) (hnot mainNames (by decide) h)
  next =>
    split
    next h => exact iff_of_false (by decide) (hnot temporaryNames (by decide) h)
    next => exact Caseless.hash_mem_fold

/-- A name with the sign of aliases is no catalog's. -/
theorem key_eq_fold_of_hash {t : String} (h : '#' ∈ t.toList) : key t = Caseless.fold t := by
  have hkey := hash_mem_key.mpr h
  refine key_eq_fold ?_ ?_ <;>
  · intro he
    rw [he] at hkey
    exact absurd hkey (by decide)

theorem hash_mem_joinAlias (t : String) (k : Nat) : '#' ∈ (joinAlias t k).toList := by
  rw [toList_joinAlias]
  exact List.mem_append_right _ List.mem_cons_self

/-- What stands behind the last sign in a key is the number of the join. -/
theorem toList_key_joinAlias (t : String) (k : Nat) :
    (key (joinAlias t k)).toList = t.toList.map Char.toLower ++ '#' :: Nat.toDigits 10 k := by
  rw [key_eq_fold_of_hash (hash_mem_joinAlias t k), Caseless.toList_fold, toList_joinAlias,
    List.map_append, List.map_cons]
  congr 2
  have hdigits : ∀ c ∈ Nat.toDigits 10 k, c.toLower = id c :=
    fun c hc => Caseless.toLower_digit (Numeral.isDigit_toDigits c hc)
  exact (List.map_congr_left hdigits).trans (List.map_id _)

/-- **Aliases with different numbers are different names.** -/
theorem number_of_key_joinAlias {t u : String} {j k : Nat}
    (h : key (joinAlias t j) = key (joinAlias u k)) : j = k := by
  have hlist := congrArg (fun s : String => s.toList.reverse.takeWhile (· != '#')) h
  have hbehind : ∀ (v : String) (n : Nat),
      (key (joinAlias v n)).toList.reverse.takeWhile (· != '#') =
        (Nat.toDigits 10 n).reverse := by
    intro v n
    have hdigits : ∀ c ∈ (Nat.toDigits 10 n).reverse, (c != '#') = true := by
      intro c hc
      have hdigit := Numeral.isDigit_toDigits c (List.mem_reverse.mp hc)
      rw [bne_iff_ne]
      rintro rfl
      exact absurd hdigit (by decide)
    rw [toList_key_joinAlias, List.reverse_append, List.reverse_cons, List.append_assoc,
      List.takeWhile_append_of_pos hdigits]
    simp
  simp only [hbehind, List.reverse_inj] at hlist
  have hnumber := congrArg (Nat.ofDigitChars 10 · 0) hlist
  simpa only [Nat.ofDigitChars_toDigits (b := 10) (by decide) (by decide)] using hnumber

end Catalog

/-! ### Looking up -/

/-- The content of what is found, and null if nothing is. -/
def Lookup.operand : Lookup (Option NumberedRow) → Operand
  | found _ source cell => cell.operand source.content
  | _ => .computed .null

namespace Scope

variable {clause : List (Source (Option NumberedRow))} {outer : Scope (Option NumberedRow)}
  {qualifier name : String}

/-- What is found in a clause does not depend on how many clauses are inside it. -/
theorem findIn_cases (level level' : Nat) (clause : List (Source (Option NumberedRow)))
    (qualifier name : String) :
    (∃ s cell, findIn level clause qualifier name = .found level s cell ∧
        findIn level' clause qualifier name = .found level' s cell) ∨
      (findIn level clause qualifier name = .ambiguous ∧
        findIn level' clause qualifier name = .ambiguous) ∨
      (findIn level clause qualifier name = .missing ∧
        findIn level' clause qualifier name = .missing) := by
  simp only [findIn]
  split
  next s c _ => exact Or.inl ⟨s, _, rfl, rfl⟩
  next => exact Or.inr (Or.inl ⟨rfl, rfl⟩)
  next =>
    split
    next =>
      split
      next s _ => exact Or.inl ⟨s, _, rfl, rfl⟩
      next => exact Or.inr (Or.inr ⟨rfl, rfl⟩)
      next => exact Or.inr (Or.inl ⟨rfl, rfl⟩)
    next => exact Or.inr (Or.inr ⟨rfl, rfl⟩)

theorem operand_eq (scope : Scope (Option NumberedRow)) (qualifier name : String) :
    scope.operand qualifier name = (scope.find qualifier name).operand := by
  unfold operand
  cases scope.find qualifier name <;> rfl

theorem operand_findFrom (qualifier name : String) (level level' : Nat)
    (scope : Scope (Option NumberedRow)) :
    (findFrom qualifier name level scope).operand =
      (findFrom qualifier name level' scope).operand := by
  induction scope generalizing level level' with
  | nil => rfl
  | cons clause outer ih =>
    simp only [findFrom]
    rcases findIn_cases level level' clause qualifier name with
      ⟨s, cell, h, h'⟩ | ⟨h, h'⟩ | ⟨h, h'⟩
    · rw [h, h']
      rfl
    · rw [h, h']
    · rw [h, h']
      exact ih (level + 1) (level' + 1)

/-- A clause with at most one table of the name has the column if this table has it. -/
theorem operand_cons {s? : Option (Source (Option NumberedRow))}
    (h : (clause.filter fun s => Catalog.key s.name == Catalog.key qualifier) = s?.toList) :
    operand (clause :: outer) qualifier name =
      ((s?.bind fun s => (s.table.cell? name).map fun cell => cell.operand s.content).getD
        (operand outer qualifier name)) := by
  have houter := operand_findFrom qualifier name 1 0 outer
  rw [operand_eq, operand_eq, find, find, findFrom, findIn, h]
  cases s? with
  | none => by_cases hname : isRowNumberName name = true <;> simpa [hname] using houter
  | some s =>
    cases hc : s.table.column? name with
    | some c => simp [Table.cell?, hc, Lookup.operand]
    | none =>
      by_cases hname : isRowNumberName name = true
      · simp [Table.cell?, hc, hname, Lookup.operand]
      · simpa [Table.cell?, hc, hname] using houter

/-- A clause without a table of the name is passed over. -/
theorem operand_cons_of_ne (h : ∀ s ∈ clause, Catalog.key s.name ≠ Catalog.key qualifier) :
    operand (clause :: outer) qualifier name = operand outer qualifier name := by
  have hnone : (clause.filter fun s => Catalog.key s.name == Catalog.key qualifier) =
      (none : Option (Source (Option NumberedRow))).toList := by
    refine List.filter_eq_nil_iff.mpr fun s hs => ?_
    simpa using h s hs
  exact operand_cons hnone

theorem operand_of_ne {scope : Scope (Option NumberedRow)}
    (h : ∀ clause ∈ scope, ∀ s ∈ clause, Catalog.key s.name ≠ Catalog.key qualifier) :
    operand scope qualifier name = .computed .null := by
  induction scope with
  | nil => rfl
  | cons clause outer ih =>
    rw [operand_cons_of_ne (h clause List.mem_cons_self)]
    exact ih fun clause hclause => h clause (List.mem_cons_of_mem _ hclause)

/-- A table of the name is read if no clause further out has one. -/
theorem operand_cons_of_filter {s : Source (Option NumberedRow)}
    (h : (clause.filter fun s => Catalog.key s.name == Catalog.key qualifier) = [s])
    (houter : ∀ clause ∈ outer, ∀ s ∈ clause, Catalog.key s.name ≠ Catalog.key qualifier) :
    operand (clause :: outer) qualifier name = s.read name := by
  have hsome : (clause.filter fun s => Catalog.key s.name == Catalog.key qualifier) =
      (some s).toList := h
  rw [operand_cons hsome, operand_of_ne houter, Source.read, Option.bind_some]
  cases s.table.cell? name <;> rfl

end Scope

/-! ### Frames and rows -/

/-- Some tables can be told apart by their names, and from aliases. -/
structure NamesApart (tables : String → Prop) : Prop where
  /-- No name has the sign of aliases in it. -/
  plain : ∀ t, tables t → '#' ∉ t.toList
  /-- Names that differ in case are names of different tables. -/
  distinct : ∀ t u, tables t → tables u → Catalog.key t = Catalog.key u → t = u

/-- The tables of a list can be compared one by one. -/
theorem namesApart_of_toList {tables : SortedSet String}
    (hplain : ∀ t ∈ tables.toList, '#' ∉ t.toList)
    (hdistinct : ∀ t ∈ tables.toList, ∀ u ∈ tables.toList, Catalog.key t = Catalog.key u → t = u) :
    NamesApart (· ∈ tables) :=
  ⟨hplain, fun t u ht hu => hdistinct t ht u hu⟩

/-- Frames with aliases stand for a row with names of tables: the root frame as it is, and every
join with a number of its own, the numbers growing inwards up to `n`. -/
inductive Frame.Stands (root : Combination) : Nat → Scopes → List Frame → Combination → Prop
  | root (n : Nat) : Stands root n [] [.single root] root
  | join {n k m : Nat} {scopes : Scopes} {frames : List Frame} {row : Combination} (t : String)
      (s : Source (Option NumberedRow)) (h : Stands root n scopes frames row) (hnew : n < k)
      (hlast : k ≤ m) :
      Stands root m ((t, joinAlias t k) :: scopes)
        (.single [⟨joinAlias t k, s.table, s.content⟩] :: frames) (⟨t, s.table, s.content⟩ :: row)

namespace Frame.Stands

variable {root row : Combination} {n : Nat} {scopes : Scopes} {frames : List Frame}
  {tables : String → Prop}

/-- More joins may have begun. -/
theorem mono {m : Nat} (h : Stands root n scopes frames row) (hnm : n ≤ m) :
    Stands root m scopes frames row := by
  cases h with
  | root => exact .root m
  | join t s h hnew hlast => exact .join t s h hnew (hlast.trans hnm)

/-- A later alias is the name of no table around. -/
theorem key_ne_joinAlias (h : Stands root n scopes frames row) (hapart : NamesApart tables)
    (hroot : ∀ s ∈ root, tables s.name) {k : Nat} (hk : n < k) (t : String) :
    ∀ clause ∈ Frame.scope frames, ∀ s ∈ clause,
      Catalog.key s.name ≠ Catalog.key (joinAlias t k) := by
  induction h with
  | root n =>
    intro clause hclause s hs he
    obtain rfl := List.mem_singleton.mp hclause
    refine hapart.plain s.name (hroot s hs) (Catalog.hash_mem_key.mp ?_)
    rw [he]
    exact Catalog.hash_mem_key.mpr (Catalog.hash_mem_joinAlias t k)
  | @join n j m scopes frames row u s h hnew hlast ih =>
    intro clause hclause s' hs' he
    rcases List.mem_cons.mp hclause with rfl | hclause
    · obtain rfl := List.mem_singleton.mp hs'
      have hjk : j = k := Catalog.number_of_key_joinAlias he
      omega
    · exact ih (by omega) clause hclause s' hs' he

/-- A later alias qualifies no table. -/
theorem qualifier_ne_joinAlias (h : Stands root n scopes frames row) (hapart : NamesApart tables)
    {k : Nat} (hk : n < k) (t : String) {u : String} (hu : tables u) :
    Catalog.key (joinAlias t k) ≠ Catalog.key (scopes.qualifier u) := by
  induction h with
  | root n =>
    intro he
    refine hapart.plain u hu (Catalog.hash_mem_key.mp ?_)
    exact he ▸ Catalog.hash_mem_key.mpr (Catalog.hash_mem_joinAlias t k)
  | @join n j m scopes frames row v s h hnew hlast ih =>
    by_cases huv : u = v
    · intro he
      rw [huv, Scopes.qualifier_cons_self] at he
      have hkj : k = j := Catalog.number_of_key_joinAlias he
      omega
    · rw [Scopes.qualifier_cons_of_ne huv]
      exact ih (by omega)

/-- Looking for a table of the root clause is finding it by its name. -/
theorem filter_root {t : String} (hapart : NamesApart tables) (ht : tables t)
    (hroot : ∀ s ∈ root, tables s.name) (hnodup : (root.map (·.name)).Nodup) :
    (root.filter fun s => Catalog.key s.name == Catalog.key t) =
      (root.find? fun s => s.name == t).toList := by
  induction root with
  | nil => rfl
  | cons s rest ih =>
    obtain ⟨hnew, hrest⟩ := List.nodup_cons.mp hnodup
    have ih := ih (fun s hs => hroot s (List.mem_cons_of_mem _ hs)) hrest
    by_cases hst : s.name = t
    · have hnone : (rest.find? fun s => s.name == t) = none := by
        refine List.find?_eq_none.mpr fun s' hs' he => hnew ?_
        have hname : s'.name = s.name := (beq_iff_eq.mp he).trans hst.symm
        exact List.mem_map.mpr ⟨s', hs', hname⟩
      rw [List.filter_cons_of_pos (by simp [hst]), ih, hnone,
        List.find?_cons_of_pos (by simp [hst])]
      rfl
    · have hkey : Catalog.key s.name ≠ Catalog.key t := fun he =>
        hst (hapart.distinct s.name t (hroot s List.mem_cons_self) ht he)
      rw [List.filter_cons_of_neg (by simpa using hkey), ih,
        List.find?_cons_of_neg (by simpa using hst)]

/-- **Looking up is reading.**  The induction is on the joins around the column.  The alias of the
innermost join to its table is found in the clause of this join and nowhere else; for any other
table this clause is passed over. -/
theorem operand (h : Stands root n scopes frames row) (hapart : NamesApart tables)
    (hroot : ∀ s ∈ root, tables s.name) (hnodup : (root.map (·.name)).Nodup) {c : Column}
    (hc : tables c.table) :
    (Frame.scope frames).operand (scopes.qualifier c.table) c.name = row.read c := by
  induction h with
  | root n =>
    change Scope.operand [root] c.table c.name = root.read c
    rw [Scope.operand_cons (filter_root hapart hc hroot hnodup), Combination.read]
    cases root.find? fun s => s.name == c.table with
    | none => rfl
    | some s =>
      simp only [Option.bind_some, Source.read]
      cases s.table.cell? c.name <;> rfl
  | @join n k m scopes frames row t s h hnew hlast ih =>
    by_cases hct : c.table = t
    · have hself : (([⟨joinAlias t k, s.table, s.content⟩] : Combination).filter fun s =>
          Catalog.key s.name == Catalog.key (joinAlias t k)) =
            [⟨joinAlias t k, s.table, s.content⟩] := by
        simp
      rw [hct, Scopes.qualifier_cons_self]
      refine (Scope.operand_cons_of_filter hself ?_).trans ?_
      · exact h.key_ne_joinAlias hapart hroot hnew t
      · simp [Combination.read, hct, Source.read]
    · have hread : Combination.read (⟨t, s.table, s.content⟩ :: row) c = row.read c := by
        simp [Combination.read, Ne.symm hct]
      rw [Scopes.qualifier_cons_of_ne hct, hread, ← ih]
      refine Scope.operand_cons_of_ne fun s' hs' => ?_
      obtain rfl := List.mem_singleton.mp hs'
      exact h.qualifier_ne_joinAlias hapart hnew t hc

end Frame.Stands

/-! ### Evaluation -/

/-- The rows of a table under another name. -/
theorem Database.rows_eq_map (db : Database) (name table : String) :
    db.rows name table = (db.rows table table).map fun s => ⟨name, s.table, s.content⟩ := by
  unfold rows
  cases db.table? table with
  | none => rfl
  | some t => simp

namespace Expr

mutual

/-- Whether an expression has no aggregates. -/
def scalar : Expr → Bool
  | value _ => true
  | column _ => true
  | unary _ e => scalar e
  | binary _ l r => scalar l && scalar r
  | call .now _ => true
  | call f args => !f.isAggregate args.length && scalarAll args
  | join _ _ inner => scalar inner

/-- Whether none of some expressions has aggregates. -/
def scalarAll : List Expr → Bool
  | [] => true
  | e :: es => scalar e && scalarAll es

end

theorem scalar_call {f : Builtin} {args : List Expr} (hf : f ≠ .now)
    (h : scalar (call f args) = true) :
    f.isAggregate args.length = false ∧ scalarAll args = true := by
  cases f <;> first | exact absurd rfl hf | simpa [scalar] using h

theorem aggregateCalls_call {f : Builtin} {args : List Expr} (hf : f ≠ .now)
    (hplain : f.isAggregate args.length = false) (db : Database) (scopes : Scopes) (n index : Nat)
    (scope : Scope Unit) : aggregateCalls db scopes n index scope (call f args) =
      aggregateCallsAll db scopes n (index + 1) scope args := by
  cases f <;> first | exact absurd rfl hf | simp [aggregateCalls, hplain]

theorem eval_call {f : Builtin} {args : List Expr} (hf : f ≠ .now)
    (hplain : f.isAggregate args.length = false) (db : Database) (moment : Binary64)
    (scopes : Scopes) (n : Nat) (frames : List Frame) :
    eval db moment scopes n frames (call f args) =
      .computed (f.apply moment ((evalAll db moment scopes n frames args).map (·.datum))) := by
  cases f <;> first | exact absurd rfl hf | simp [eval, hplain]

mutual

theorem aggregateCalls_eq_nil (db : Database) (scopes : Scopes) (n index : Nat)
    (scope : Scope Unit) : (e : Expr) → e.scalar = true →
      aggregateCalls db scopes n index scope e = []
  | value _, _ => rfl
  | column _, _ => rfl
  | unary _ e, h => by
    rw [aggregateCalls, aggregateCalls_eq_nil db scopes n _ scope e h]
  | binary _ l r, h => by
    obtain ⟨hl, hr⟩ := Bool.and_eq_true_iff.mp h
    rw [aggregateCalls, aggregateCalls_eq_nil db scopes n _ scope l hl,
      aggregateCalls_eq_nil db scopes _ _ scope r hr, List.append_nil]
  | call f args, h => by
    by_cases hf : f = .now
    · subst hf
      rfl
    · obtain ⟨hplain, hargs⟩ := scalar_call hf h
      rw [aggregateCalls_call hf hplain]
      exact aggregateCallsAll_eq_nil db scopes n _ scope args hargs
  | join source target inner, h => by
    rw [aggregateCalls, aggregateCalls_eq_nil db _ _ _ _ inner h, List.map_nil]

theorem aggregateCallsAll_eq_nil (db : Database) (scopes : Scopes) (n index : Nat)
    (scope : Scope Unit) : (es : List Expr) → scalarAll es = true →
      aggregateCallsAll db scopes n index scope es = []
  | [], _ => rfl
  | e :: es, h => by
    obtain ⟨he, hes⟩ := Bool.and_eq_true_iff.mp h
    rw [aggregateCallsAll, aggregateCalls_eq_nil db scopes n _ scope e he,
      aggregateCallsAll_eq_nil db scopes _ _ scope es hes, List.append_nil]

end

theorem isAggregate_eq_false {e : Expr} (h : e.scalar = true) (db : Database) (scopes : Scopes)
    (n : Nat) (scope : Scope Unit) : e.isAggregate db scopes n scope = false := by
  rw [isAggregate, aggregateCalls_eq_nil db scopes n 0 scope e h]
  rfl

end Expr

section Eval

variable {root : Combination} {tables : String → Prop}

/-- Under its alias, a row of a join is read by its own name. -/
theorem Frame.Stands.operand_target {n : Nat} {scopes : Scopes} {frames : List Frame}
    {row : Combination} (h : Frame.Stands root n scopes frames row) (hapart : NamesApart tables)
    (hroot : ∀ s ∈ root, tables s.name) (t name : String) (s : Source (Option NumberedRow)) :
    Scope.operand ([⟨joinAlias t (n + 1), s.table, s.content⟩] :: Frame.scope frames)
      (joinAlias t (n + 1)) name = s.read name := by
  have hself : (([⟨joinAlias t (n + 1), s.table, s.content⟩] : Combination).filter fun s =>
      Catalog.key s.name == Catalog.key (joinAlias t (n + 1))) =
        [⟨joinAlias t (n + 1), s.table, s.content⟩] := by
    simp
  rw [Scope.operand_cons_of_filter hself]
  · rfl
  · exact h.key_ne_joinAlias hapart hroot (Nat.lt_succ_self n) t

/-- Within a join, the referring column is still read outside it. -/
theorem Frame.Stands.operand_source {n : Nat} {scopes : Scopes} {frames : List Frame}
    {row : Combination} (h : Frame.Stands root n scopes frames row) (hapart : NamesApart tables)
    (hroot : ∀ s ∈ root, tables s.name) (hnodup : (root.map (·.name)).Nodup) {source : Column}
    (hsource : tables source.table) (t : String) (s : Source (Option NumberedRow)) :
    Scope.operand ([⟨joinAlias t (n + 1), s.table, s.content⟩] :: Frame.scope frames)
      (scopes.qualifier source.table) source.name = row.read source := by
  rw [← h.operand hapart hroot hnodup hsource]
  refine Scope.operand_cons_of_ne fun s' hs' => ?_
  obtain rfl := List.mem_singleton.mp hs'
  exact h.qualifier_ne_joinAlias hapart (Nat.lt_succ_self n) t hsource

/-- The row that a join finds under its alias is the one that it refers to. -/
theorem Frame.Stands.find?_join {n : Nat} {scopes : Scopes} {frames : List Frame}
    {row : Combination} (h : Frame.Stands root n scopes frames row) (hapart : NamesApart tables)
    (hroot : ∀ s ∈ root, tables s.name) (hnodup : (root.map (·.name)).Nodup) (db : Database)
    {source : Column} (hsource : tables source.table) (target : Column) :
    (db.rows (joinAlias target.table (n + 1)) target.table).find? (fun candidate =>
        (BinaryOp.apply .equal
          (Scope.operand ([candidate] :: Frame.scope frames) (joinAlias target.table (n + 1))
            target.name)
          (Scope.operand ([candidate] :: Frame.scope frames) (scopes.qualifier source.table)
            source.name)).truth == some true) =
      ((db.rows target.table target.table).find? fun candidate =>
        (candidate.read target.name).equals (row.read source)).map fun s =>
          ⟨joinAlias target.table (n + 1), s.table, s.content⟩ := by
  rw [Database.rows_eq_map, List.find?_map]
  refine congrArg (Option.map _) (congrArg (fun p => List.find? p _) ?_)
  funext s
  have htarget := h.operand_target hapart hroot target.table target.name s
  have hrefers := h.operand_source hapart hroot hnodup hsource target.table s
  rw [Function.comp_apply, htarget, hrefers, Operand.equals]

namespace Expr

mutual

/-- **Expressions are evaluated row by row.** -/
theorem eval_eq_onRow (hapart : NamesApart tables) (hroot : ∀ s ∈ root, tables s.name)
    (hnodup : (root.map (·.name)).Nodup) (db : Database) (moment : Binary64) {n : Nat}
    {scopes : Scopes} {frames : List Frame} {row : Combination}
    (h : Frame.Stands root n scopes frames row) : (e : Expr) → e.scalar = true →
      (∀ c ∈ e.mentions, tables c.table) →
      eval db moment scopes n frames e = onRow db moment row e
  | value _, _, _ => rfl
  | column c, _, hc => h.operand hapart hroot hnodup (hc c List.mem_cons_self)
  | unary op e, hs, hc => by
    rw [eval, onRow, eval_eq_onRow hapart hroot hnodup db moment h e hs hc]
  | binary op l r, hs, hc => by
    obtain ⟨hsl, hsr⟩ := Bool.and_eq_true_iff.mp hs
    have hl := eval_eq_onRow hapart hroot hnodup db moment h l hsl fun c hm =>
      hc c (List.mem_append_left _ hm)
    have hr := eval_eq_onRow hapart hroot hnodup db moment (h.mono (Nat.le_add_right n (joins l)))
      r hsr fun c hm => hc c (List.mem_append_right _ hm)
    rcases htest : nullTest? op l r with _ | ⟨test, _ | _⟩ <;>
      simp only [eval, onRow, htest, hl, hr]
  | call f args, hs, hc => by
    by_cases hf : f = .now
    · subst hf
      rfl
    · obtain ⟨hplain, hargs⟩ := scalar_call hf hs
      have hall := evalAll_eq_onRow hapart hroot hnodup db moment h args hargs hc
      rw [eval_call hf hplain, onRow_call hf, hall]
  | join source target inner, hs, hc => by
    have hsource : tables source.table := hc source List.mem_cons_self
    have hfind := h.find?_join hapart hroot hnodup db hsource target
    have hs : inner.scalar = true := hs
    simp only [eval, onRow, isAggregate_eq_false hs, hfind, Bool.false_eq_true, if_false]
    cases hrow : (db.rows target.table target.table).find? fun candidate =>
        (candidate.read target.name).equals (row.read source) with
    | none => rfl
    | some s =>
      have hname : s.name = target.table :=
        Database.name_of_mem_rows (List.mem_of_find?_eq_some hrow)
      have hin := Frame.Stands.join target.table s h (Nat.lt_succ_self n) (Nat.le_refl _)
      have hinner := eval_eq_onRow hapart hroot hnodup db moment hin inner hs fun c hm =>
        hc c (List.mem_cons_of_mem _ (List.mem_cons_of_mem _ hm))
      rw [← hname] at hinner ⊢
      exact hinner

/-- Expressions next to each other are evaluated row by row. -/
theorem evalAll_eq_onRow (hapart : NamesApart tables) (hroot : ∀ s ∈ root, tables s.name)
    (hnodup : (root.map (·.name)).Nodup) (db : Database) (moment : Binary64) {n : Nat}
    {scopes : Scopes} {frames : List Frame} {row : Combination}
    (h : Frame.Stands root n scopes frames row) : (es : List Expr) → scalarAll es = true →
      (∀ c ∈ mentionsAll es, tables c.table) →
      evalAll db moment scopes n frames es = es.map (onRow db moment row)
  | [], _, _ => rfl
  | e :: es, hs, hc => by
    obtain ⟨hse, hses⟩ := Bool.and_eq_true_iff.mp hs
    have he := eval_eq_onRow hapart hroot hnodup db moment h e hse fun c hm =>
      hc c (List.mem_append_left _ hm)
    have hes := evalAll_eq_onRow hapart hroot hnodup db moment
      (h.mono (Nat.le_add_right n (joins e))) es hses fun c hm =>
        hc c (List.mem_append_right _ hm)
    rw [evalAll, he, hes, List.map_cons]

end

end Expr

end Eval

/-! ### Queries -/

/-- A combination has one row of each table. -/
theorem Database.names_of_mem_combinations {db : Database} {row : Combination} {ts : List String}
    (h : row ∈ db.combinations ts) : row.map (·.name) = ts := by
  induction ts generalizing row with
  | nil => rw [List.mem_singleton.mp h, List.map_nil]
  | cons t ts ih =>
    obtain ⟨s, hs, hrow⟩ := List.mem_flatMap.mp h
    obtain ⟨rest, hrest, rfl⟩ := List.mem_map.mp hrow
    rw [List.map_cons, ih hrest, Database.name_of_mem_rows hs]

theorem Site.expr_mem {gap index n : Nat} {es : List Expr} {s : Site}
    (h : s ∈ Site.list gap index n es) : s.expr ∈ es := by
  induction es generalizing index n with
  | nil => cases h
  | cons e es ih =>
    rcases List.mem_cons.mp h with rfl | h
    · exact List.mem_cons_self
    · exact List.mem_cons_of_mem _ (ih h)

namespace Query

/-- Whether a query has no aggregates. -/
def scalar (q : Query) : Bool := q.exprs.all Expr.scalar

variable {db : Database} {q : Query} {row : Combination}

/-- The tables that a query ranges over are among those it reads. -/
theorem mem_tables_of_mem_rootTables {t : String} (h : t ∈ q.rootTables) : t ∈ q.tables := by
  obtain ⟨n, hn⟩ := exists_mem_columns_of_mem_rootTables h
  exact mem_tables.mpr ⟨_, hn, rfl⟩

theorem nodup_rootTables (q : Query) : q.rootTables.toList.Nodup :=
  q.rootTables.sorted.imp fun hlt he => by simp [he] at hlt

/-- On one row, the data of some parts of a query are their values row by row. -/
theorem data_single (hapart : NamesApart (· ∈ q.tables)) (hscalar : q.scalar = true)
    (hrow : row ∈ db.combinations q.rootTables.toList) (moment : Binary64) {es : List Expr}
    (hes : ∀ e ∈ es, e ∈ q.exprs) (gap index n : Nat) :
    Site.data db moment [.single row] (Site.list gap index n es) =
      es.map fun e => (e.onRow db moment row).datum := by
  have hnames := Database.names_of_mem_combinations hrow
  have hroot : ∀ s ∈ row, s.name ∈ q.tables := fun s hs =>
    mem_tables_of_mem_rootTables (hnames ▸ List.mem_map_of_mem hs : s.name ∈ q.rootTables.toList)
  have hnodup : (row.map (·.name)).Nodup := by
    rw [hnames]
    exact q.nodup_rootTables
  induction es generalizing index n with
  | nil => rfl
  | cons e es ih =>
    have he := hes e List.mem_cons_self
    have heval := Expr.eval_eq_onRow hapart hroot hnodup db moment (.root n) e
      (List.all_eq_true.mp hscalar e he) fun c hc =>
        mem_tables.mpr ⟨c, mem_columns_of_mem_mentions he hc, rfl⟩
    have hrest := ih (fun e he => hes e (List.mem_cons_of_mem _ he)) (index + e.size + gap)
      (n + e.joins)
    rw [Site.list, Site.data, List.map_cons, heval]
    exact congrArg _ hrest

theorem kept_eq (hapart : NamesApart (· ∈ q.tables)) (hscalar : q.scalar = true)
    (moment : Binary64) :
    q.kept db moment = (db.combinations q.rootTables.toList).filter (q.holdsOn db moment) := by
  refine List.filter_congr fun row hrow => ?_
  rw [Site.allHold, predicateSites, data_single hapart hscalar hrow moment
    (fun e he => predicate_mem_exprs he), List.all_map, holdsOn]
  rfl

/-- Sorting keeps the rows. -/
theorem selected_perm (db : Database) (moment : Binary64) (q : Query) :
    (q.selected db moment).Perm (q.kept db moment) := by
  have hsort := (List.mergeSort_perm ((q.kept db moment).map fun row =>
    ((Site.data db moment [.single row] q.orderSites).zip (q.order.map SortKey.direction), row))
    fun a b => (compareKeys a.1 b.1).isLE).map (·.2)
  rw [List.map_map] at hsort
  exact hsort.trans (by rw [Function.comp_def, List.map_id'])

theorem isAggregate_eq_false (hscalar : q.scalar = true) : q.isAggregate db = false := by
  rw [isAggregate, List.any_eq_false]
  intro s hs
  obtain ⟨r, hr, he⟩ := List.mem_map.mp (Site.expr_mem hs)
  have hexpr := List.all_eq_true.mp hscalar s.expr (he ▸ expr_mem_exprs hr)
  simp [Expr.isAggregate_eq_false hexpr]

end Query

/-- A query without aggregates gives a row for every combination of rows that it keeps. -/
theorem Database.run_eq_map {db : Database} {q : Query} (hscalar : q.scalar = true)
    (hapart : NamesApart (· ∈ q.tables)) {moment : Binary64} {rows : List (List Value)}
    (hrun : db.run moment q = .ok rows) {values : Combination → List Value}
    (hvalues : ∀ row ∈ q.kept db moment,
      db.resultValues moment q (.single row) = values row) :
    (rows : Multiset (List Value)) = ((db.combinations q.rootTables.toList : Multiset _).filter
      fun row => q.holdsOn db moment row = true).map values := by
  unfold run at hrun
  split at hrun
  next => cases hrun
  next =>
    obtain rfl := Except.ok.inj hrun
    rw [Query.frames, Query.isAggregate_eq_false hscalar, if_neg Bool.false_ne_true, List.map_map]
    have hperm := (Query.selected_perm db moment q).map (db.resultValues moment q ∘ Frame.single)
    have hmap : (q.kept db moment).map (db.resultValues moment q ∘ Frame.single) =
        (q.kept db moment).map values := List.map_congr_left hvalues
    rw [Multiset.coe_eq_coe.mpr hperm, hmap, Query.kept_eq hapart hscalar, Multiset.filter_coe,
      Multiset.map_coe]
    simp only [Bool.decide_eq_true]

/-- **The engine answers row by row** every query without aggregates that names its results and
whose tables can be told apart. -/
theorem Database.answersRowwise (db : Database) {q : Query} (hresults : q.results ≠ [])
    (hscalar : q.scalar = true) (hapart : NamesApart (· ∈ q.tables)) : db.AnswersRowwise q := by
  intro moment rows hrun
  refine run_eq_map hscalar hapart hrun fun row hrow => ?_
  have hempty : q.results.isEmpty = false := by simpa using hresults
  rw [resultValues, hempty, if_neg Bool.false_ne_true, Query.resultSites,
    Query.data_single hapart hscalar (List.mem_of_mem_filter hrow) moment, Query.resultsOn,
    List.map_map, List.map_map]
  · rfl
  · intro e he
    obtain ⟨r, hr, rfl⟩ := List.mem_map.mp he
    exact Query.expr_mem_exprs hr

end LiveQuery
