import LiveQuery.Model.Row
import LiveQuery.Proofs.FirstFault
import LiveQuery.Proofs.Outline
import LiveQuery.Proofs.Walks
import LiveQuery.Store.Basic

/-!
# Rows of results

The values of a result row come in the order of the selection, and they are looked up by name.  The
names are those that the engine finds in the text of the statement, and a name is either chosen
freely or the canonical text of an expression, which is rendered by itself and not as a part of the
statement.  A map from names to values keeps the last value of a name only.  So no value gets lost
or takes the place of another one if the names of a selection are different, and this is why a
selection with a repetition does not compile.

## Main definitions

* `NameReader`, `Token.outputNames`: the names behind AS in a statement, outside brackets.
* `Row.Holds`: a row holds the values of the results of a selection.

## Main results

* `Query.outputNames_tokens`: the names in the text of a query are those of its results.
* `Store.get?_resultRow`: every value is found under its name.
* `Request.compileSelection_eq_duplicate_iff`: which selections have a repetition.
* `Request.selection_unmixed`: all of it together.
-/

namespace LiveQuery

/-! ### Output names -/

theorem Expr.length_tokensAll (scopes : Scopes) (n : Nat) (es : List Expr) :
    (tokensAll scopes n es).length = es.length := by
  induction es generalizing n with
  | nil => rfl
  | cons e es ih => exact congrArg (· + 1) (ih _)

/-- Reading the names behind AS. -/
structure NameReader where
  /-- How many brackets are open. -/
  depth : Nat
  /-- Whether the next name is one behind AS, outside brackets. -/
  naming : Bool
  /-- The names so far. -/
  names : List String

namespace NameReader

/-- The reader after a token. -/
def read (r : NameReader) : Token → NameReader
  | .name n => if r.naming then { r with naming := false, names := r.names ++ [n] } else r
  | .keyword .as => { r with naming := decide (r.depth = 0) }
  | .keyword .openParen | .keyword (.call _) => { r with depth := r.depth + 1 }
  | .keyword .closeParen => { r with depth := r.depth - 1 }
  | _ => r

/-- Reading some tokens changes nothing unless a name is due. -/
def Passes (tokens : List Token) : Prop :=
  ∀ depth names, tokens.foldl read ⟨depth, false, names⟩ = ⟨depth, false, names⟩

theorem passes_nil : Passes [] := fun _ _ => rfl

theorem Passes.append {ts us : List Token} (hts : Passes ts) (hus : Passes us) :
    Passes (ts ++ us) := by
  intro depth names
  rw [List.foldl_append, hts, hus]

theorem Passes.cons {t : Token} {ts : List Token} (ht : Passes [t]) (hts : Passes ts) :
    Passes (t :: ts) :=
  ht.append hts

theorem Passes.flatten {tss : List (List Token)} (h : ∀ ts ∈ tss, Passes ts) :
    Passes tss.flatten := by
  induction tss with
  | nil => exact passes_nil
  | cons ts rest ih =>
    obtain ⟨hts, hrest⟩ := List.forall_mem_cons.mp h
    exact hts.append (ih hrest)

theorem Passes.separated {tss : List (List Token)} (h : ∀ ts ∈ tss, Passes ts) :
    Passes (Token.separated tss) := by
  intro depth names
  rw [Token.foldl_separated fun _ => rfl, Passes.flatten h]

theorem passes_unaryTokens {operand : List Token} (h : Passes operand) (op : UnaryOp) :
    Passes (Expr.unaryTokens operand op) := by
  intro depth names
  have hinside := h (depth + 1) names
  cases op <;> simp [Expr.unaryTokens, List.foldl_append, read, hinside]

open LiveQuery.Expr in
mutual

/-- **An expression names no results.**  An AS of it stands in the brackets of a join. -/
theorem passes_tokens (scopes : Scopes) (n : Nat) : (e : Expr) → Passes (e.tokens scopes n)
  | value v => by
    cases v <;> exact fun _ _ => rfl
  | column c => fun _ _ => rfl
  | unary op e => passes_unaryTokens (passes_tokens scopes n e) op
  | binary op l r => by
    have hl := passes_tokens scopes n l
    have hr := passes_tokens scopes (n + joins l) r
    rw [tokens]
    rcases nullTest? op l r with _ | ⟨test, _ | _⟩
    · intro depth names
      simp [List.foldl_append, read, hl (depth + 1) names, hr (depth + 1) names]
    · exact passes_unaryTokens hr test
    · exact passes_unaryTokens hl test
  | call f args => by
    by_cases hf : f = .now
    · subst hf
      exact fun _ _ => rfl
    · have hargs := Passes.separated (passes_tokensAll scopes n args)
      intro depth names
      rw [tokens_call hf]
      simp [List.foldl_append, read, hargs (depth + 1) names]
  | join source target inner => by
    have hinner := passes_tokens
      ((target.table, joinAlias target.table (n + 1)) :: scopes) (n + 1) inner
    intro depth names
    rw [tokens]
    simp [List.foldl_append, read, hinner (depth + 1) names, Column.token]

theorem passes_tokensAll (scopes : Scopes) (n : Nat) : (es : List Expr) →
    ∀ ts ∈ tokensAll scopes n es, Passes ts
  | [] => fun _ h => absurd h List.not_mem_nil
  | e :: es => by
    rw [tokensAll]
    exact List.forall_mem_cons.mpr ⟨passes_tokens scopes n e, passes_tokensAll scopes _ es⟩

end

theorem passes_conditionTokens {tss : List (List Token)} (h : ∀ ts ∈ tss, Passes ts) :
    Passes (Query.conditionTokens tss) := by
  cases tss with
  | nil => exact passes_nil
  | cons ts rest =>
    obtain ⟨hts, hrest⟩ := List.forall_mem_cons.mp h
    refine Passes.cons (fun _ _ => rfl) (hts.append ?_)
    rw [List.flatMap_def]
    refine Passes.flatten (List.forall_mem_map.mpr fun us hus => ?_)
    exact Passes.cons (fun _ _ => rfl) (hrest us hus)

theorem passes_orderTokens (keys : List SortKey) {tss : List (List Token)}
    (h : ∀ ts ∈ tss, Passes ts) : Passes (Query.orderTokens keys tss) := by
  unfold Query.orderTokens
  split
  · exact passes_nil
  · refine Passes.cons (fun _ _ => rfl) (Passes.separated ?_)
    rw [← List.map_uncurry_zip_eq_zipWith]
    refine List.forall_mem_map.mpr fun p hp => ?_
    exact (h p.2 (List.of_mem_zip hp).2).append fun _ _ => rfl

theorem passes_rootTokens (q : Query) : Passes q.rootTokens := by
  unfold Query.rootTokens
  split
  · exact passes_nil
  · refine Passes.cons (fun _ _ => rfl) (Passes.separated ?_)
    exact List.forall_mem_map.mpr fun t _ => fun _ _ => rfl

/-- Results are named in order. -/
theorem foldl_named {titles : List String} {tss : List (List Token)} (h : ∀ ts ∈ tss, Passes ts)
    (hlength : titles.length = tss.length) (names : List String) :
    (List.zipWith (fun n ts => ts ++ [.keyword .as, .name n]) titles tss).flatten.foldl read
      ⟨0, false, names⟩ = ⟨0, false, names ++ titles⟩ := by
  induction titles generalizing tss names with
  | nil => simp
  | cons n titles ih =>
    obtain ⟨ts, tss, rfl⟩ := List.exists_cons_of_length_eq_add_one hlength.symm
    obtain ⟨hts, hrest⟩ := List.forall_mem_cons.mp h
    have hlater := ih hrest (Nat.succ.inj hlength) (names ++ [n])
    rw [List.append_assoc] at hlater
    rw [List.zipWith_cons_cons, List.flatten_cons, List.foldl_append, List.foldl_append, hts]
    exact hlater

end NameReader

/-- The names behind AS in a statement, outside brackets. -/
def Token.outputNames (tokens : List Token) : List String :=
  (tokens.foldl NameReader.read ⟨0, false, []⟩).names

open NameReader in
/-- **The names in the text of a query are those of its results.** -/
theorem Query.outputNames_tokens (q : Query) : Token.outputNames q.tokens = q.names := by
  have hresults : q.resultTokens.foldl read ⟨0, false, []⟩ = ⟨0, false, q.names⟩ := by
    unfold resultTokens
    split
    next hempty =>
      have hnames : q.names = [] := congrArg (List.map _) (List.isEmpty_iff.mp hempty)
      rw [hnames]
      rfl
    next =>
      rw [Token.foldl_separated fun _ => rfl]
      refine foldl_named (passes_tokensAll [] 0 _) ?_ []
      rw [names, Expr.length_tokensAll, List.length_map, List.length_map]
  have hpredicates (n : Nat) := passes_conditionTokens (passes_tokensAll [] n q.predicates)
  have horder (n : Nat) :=
    passes_orderTokens q.order (passes_tokensAll [] n (q.order.map SortKey.expr))
  have hstart : read ⟨0, false, []⟩ (.keyword .select) = ⟨0, false, []⟩ := rfl
  rw [Token.outputNames, tokens, List.foldl_cons, hstart, List.foldl_append, List.foldl_append,
    List.foldl_append, hresults, passes_rootTokens, hpredicates, horder]

/-! ### Values by name -/

namespace Store

variable {names : List String} {values : List Value}

/-- If names are different, none of the values takes the place of another one. -/
theorem perm_resultRow (hnodup : names.Nodup) (hlength : values.length = names.length) :
    (resultRow names values).toList.Perm (names.zip values) := by
  have hkeys : (names.zip values).map Prod.fst = names := List.map_fst_zip hlength.ge
  exact SortedMap.perm_ofList (hkeys.symm ▸ hnodup)

theorem size_resultRow (hnodup : names.Nodup) (hlength : values.length = names.length) :
    (resultRow names values).size = names.length := by
  rw [SortedMap.size, (perm_resultRow hnodup hlength).length_eq, List.length_zip, hlength,
    Nat.min_self]

/-- Every value is found under its name. -/
theorem get?_resultRow (hnodup : names.Nodup) (hlength : values.length = names.length) {i : Nat}
    {n : String} {v : Value} (hn : names[i]? = some n) (hv : values[i]? = some v) :
    SortedMap.get? (resultRow names values) n = some v := by
  have hmem : (n, v) ∈ names.zip values :=
    List.mem_of_getElem? (List.getElem?_zip_eq_some.mpr ⟨hn, hv⟩)
  rw [SortedMap.get?_eq_some_iff]
  exact (perm_resultRow hnodup hlength).mem_iff.mpr hmem

end Store

variable {ι : Type} {m : Model ι} {root : ι} {selection : List Selected}

namespace Request

/-! ### Selections without a fault -/

/-- A selection compiles if its terms do and its names are different. -/
theorem compileSelection_eq_ok_iff {results : List ResultColumn} :
    compileSelection m root [] selection = .ok results ↔
      ((∀ s ∈ selection, s.term.fault? m root = none) ∧
        (selection.map (Selected.title m root)).Nodup) ∧
        selection.map (Selected.translate m root) = results := by
  have hfault : ((selection.inits.zip selection).findSome? fun p => p.2.fault? m root ([] ++ p.1)) =
      none ↔ _ := findSome?_entries_eq_none_iff []
  simp only [List.map_nil, List.not_mem_nil, not_false_eq_true, and_true] at hfault
  rw [compileSelection_eq [] fun n => by simp, unlessFault_eq_ok_iff, hfault]

/-! ### Selections with a repetition -/

/-- The first fault of a selection is that of an entry behind others without a fault. -/
theorem findSome?_entries_eq_some_iff {err : CompileError} (before : List Selected) :
    ((selection.inits.zip selection).findSome? fun p => p.2.fault? m root (before ++ p.1)) =
        some err ↔
      ∃ earlier s after, selection = earlier ++ s :: after ∧
        ((earlier.inits.zip earlier).findSome? fun p => p.2.fault? m root (before ++ p.1)) =
          none ∧ s.fault? m root (before ++ earlier) = some err := by
  induction selection generalizing before with
  | nil => simp
  | cons s rest ih =>
    rw [findSome?_entries, Option.or_eq_some_iff, ih]
    constructor
    · rintro (hs | ⟨hs, earlier, s', after, rfl, hearlier, hs'⟩)
      · exact ⟨[], s, rest, rfl, rfl, by rwa [List.append_nil]⟩
      · refine ⟨s :: earlier, s', after, rfl, ?_, ?_⟩
        · rw [findSome?_entries, hs, hearlier]
          rfl
        · rwa [List.append_assoc] at hs'
    · rintro ⟨_ | ⟨_, earlier⟩, s', after, hsplit, hearlier, hs'⟩
      · obtain ⟨rfl, rfl⟩ := List.cons.inj hsplit
        exact .inl (by rwa [List.append_nil] at hs')
      · obtain ⟨rfl, rfl⟩ := List.cons.inj hsplit
        rw [findSome?_entries, Option.or_eq_none_iff] at hearlier
        refine .inr ⟨hearlier.1, earlier, s', after, rfl, hearlier.2, ?_⟩
        rwa [List.append_assoc]

end Request

/-- What is wrong with a path or a term is never a name that is selected twice. -/
theorem KeyPath.compile_ne_duplicate (p : KeyPath) (name : String) :
    p.compile m root ≠ .error (.duplicateResultName name) := by
  obtain ⟨names, last, rfl⟩ := p.exists_eq_along
  intro hcompile
  -- None of the errors of a walk is this one.
  generalize herr : CompileError.duplicateResultName name = err at hcompile
  cases fails_of_compile hcompile with
  | unresolved => cases herr
  | strays hstrays =>
    obtain ⟨_, _, _, _, _, -, -, hrefuses⟩ := hstrays
    cases hrefuses <;> cases herr

theorem Term.fault?_ne_duplicate (t : Term) (name : String) :
    t.fault? m root ≠ some (.duplicateResultName name) := by
  intro hfault
  obtain ⟨s, -, hown⟩ := List.exists_of_findSome?_eq_some hfault
  unfold ownFault? at hown
  split at hown
  next p =>
    split at hown
    next => cases hown
    next err herr =>
      obtain rfl := Option.some.inj hown
      exact p.compile_ne_duplicate name herr
  next =>
    split at hown <;> cases hown
  next =>
    split at hown <;> cases hown
  next => cases hown

theorem Term.fault?_eq_none_iff_compiles {t : Term} :
    t.fault? m root = none ↔ ∃ e, t.compile m root = .ok e := by
  simp only [t.compile_eq, unlessFault_eq_ok_iff, exists_and_left, exists_eq', and_true]

theorem Selected.fault?_eq_duplicate_iff {before : List Selected} {s : Selected} {name : String} :
    s.fault? m root before = some (.duplicateResultName name) ↔
      s.term.fault? m root = none ∧ s.title m root = name ∧
        name ∈ before.map (Selected.title m root) := by
  rw [Selected.fault?, Option.or_eq_some_iff]
  constructor
  · rintro (hterm | ⟨hterm, hname⟩)
    · exact absurd hterm (s.term.fault?_ne_duplicate name)
    · split at hname
      next hmem =>
        obtain rfl := CompileError.duplicateResultName.inj (Option.some.inj hname)
        exact ⟨hterm, rfl, hmem⟩
      next => cases hname
  · rintro ⟨hterm, rfl, hmem⟩
    exact .inr ⟨hterm, if_pos hmem⟩

namespace Request

/-- **Which selections have a repetition.** -/
theorem compileSelection_eq_duplicate_iff {name : String} :
    compileSelection m root [] selection = .error (.duplicateResultName name) ↔
      ∃ earlier s after, selection = earlier ++ s :: after ∧
        (∀ s' ∈ earlier ++ [s], ∃ e, s'.term.compile m root = .ok e) ∧
        (earlier.map (Selected.title m root)).Nodup ∧
        s.title m root = name ∧ name ∈ earlier.map (Selected.title m root) := by
  rw [compileSelection_eq [] fun n => by simp, unlessFault_eq_error_iff,
    findSome?_entries_eq_some_iff]
  refine exists_congr fun earlier => exists_congr fun s => exists_congr fun after => ?_
  refine and_congr_right fun _ => ?_
  rw [findSome?_entries_eq_none_iff, Selected.fault?_eq_duplicate_iff]
  simp only [List.map_nil, List.not_mem_nil, not_false_eq_true, and_true, List.nil_append,
    Term.fault?_eq_none_iff_compiles, List.forall_mem_append, List.forall_mem_singleton]
  tauto

end Request

/-! ### Rows -/

/-- A row holds the values of the results of a selection, each in its place, and gives them by name
and by term. -/
structure Row.Holds (m : Model ι) (root : ι) (selection : List Selected)
    (results : List ResultColumn) (values : List Value) (row : Row) : Prop where
  /-- There is one entry for every result. -/
  size : row.size = results.length
  /-- The name of a result reads its value. -/
  get : ∀ {i : Nat} {r : ResultColumn} {v : Value}, results[i]? = some r →
    values[i]? = some v → ∀ (α : Type) [Field α], row.get α r.name = Field.decode v
  /-- A term that compiles like one that is selected without a name reads the value of that. -/
  getTerm : ∀ {i : Nat} {s : Selected} {v : Value}, selection[i]? = some s →
    values[i]? = some v → s.name = none → ∀ t : Term, t.compile m root = s.term.compile m root →
      ∀ (α : Type) [Field α], row.getTerm α m root t = Field.decode v

namespace Request

/-- The row that is made of the names in the text holds the values. -/
theorem holds_resultRow {results : List ResultColumn} {values : List Value}
    (h : compileSelection m root [] selection = .ok results)
    (hlength : values.length = results.length) :
    Row.Holds m root selection results values
      (Store.resultRow (results.map ResultColumn.name) values) := by
  obtain ⟨⟨hterms, hnodup⟩, rfl⟩ := compileSelection_eq_ok_iff.mp h
  have hnames : (selection.map (Selected.translate m root)).map ResultColumn.name =
      selection.map (Selected.title m root) := List.map_map
  rw [List.length_map, ← List.length_map (f := Selected.title m root)] at hlength
  rw [hnames]
  have hget {i : Nat} {s : Selected} {v : Value} (hs : selection[i]? = some s)
      (hv : values[i]? = some v) :
      SortedMap.get? (Store.resultRow (selection.map (Selected.title m root)) values)
        (s.title m root) = some v := by
    refine Store.get?_resultRow hnodup hlength (i := i) ?_ hv
    rw [List.getElem?_map, hs, Option.map_some]
  refine ⟨?_, fun {i r v} hr hv α _ => ?_, fun {i s v} hs hv hname t ht α _ => ?_⟩
  · rw [Store.size_resultRow hnodup hlength, List.length_map, List.length_map]
  · rw [List.getElem?_map] at hr
    obtain ⟨s, hs, rfl⟩ := Option.map_eq_some_iff.mp hr
    have hvalue := hget hs hv
    rw [Selected.title] at hvalue
    rw [Row.get, hvalue]
  · have hterm : t.compile m root = .ok (s.term.translate m root) := by
      rw [ht, s.term.compile_eq, hterms s (List.mem_of_getElem? hs)]
      rfl
    have htitle : s.title m root = (s.term.translate m root).text := by
      rw [Selected.title, Selected.translate, ResultColumn.name, hname]
      rfl
    have hvalue := hget hs hv
    rw [htitle] at hvalue
    rw [Row.getTerm, hterm]
    dsimp only
    rw [Row.get, hvalue]

/-- **Selected values are not mixed up.**  If a selection compiles, the names in the text of any
query with its results are those that the engine gives, and a row made of these names and one value
for every result holds the values.  A repetition is reported exactly if there is an entry whose name
is that of an entry before it, all terms up to it compile, and the names before it are different. -/
theorem selection_unmixed (m : Model ι) (root : ι) (selection : List Selected) :
    (∀ results, compileSelection m root [] selection = .ok results →
      ∀ q : Query, q.results = results →
        (selection ≠ [] → ∀ db : Database, db.resultNames q = Token.outputNames q.tokens) ∧
          ∀ values : List Value, values.length = results.length →
            Row.Holds m root selection results values
              (Store.resultRow (Token.outputNames q.tokens) values)) ∧
      ∀ name, compileSelection m root [] selection = .error (.duplicateResultName name) ↔
        ∃ earlier s after, selection = earlier ++ s :: after ∧
          (∀ s' ∈ earlier ++ [s], ∃ e, s'.term.compile m root = .ok e) ∧
          (earlier.map (Selected.title m root)).Nodup ∧
          s.title m root = name ∧ name ∈ earlier.map (Selected.title m root) := by
  refine ⟨fun results hresults q hq => ⟨fun hselection db => ?_, fun values hlength => ?_⟩,
    fun name => compileSelection_eq_duplicate_iff⟩
  · have hne : q.results ≠ [] := by
      obtain ⟨-, rfl⟩ := compileSelection_eq_ok_iff.mp hresults
      rw [hq]
      exact fun hnil => hselection (List.map_eq_nil_iff.mp hnil)
    rw [Query.outputNames_tokens, Database.resultNames, if_neg (by simpa using hne)]
  · rw [Query.outputNames_tokens, Query.names, hq]
    exact holds_resultRow hresults hlength

end Request

/-! ### A row of names -/

namespace Staff

/-- Asks for the names of people, and for the names of the leaders of their companies under their
canonical text. -/
def peopleAndLeaders : List Selected :=
  [⟨some "name", .path (.property "name")⟩, ⟨none, .path leaderName⟩]

/-- The query of this selection. -/
def peopleAndLeadersQuery : Query where
  results := [⟨.column ⟨"Person", "name"⟩, some "name"⟩, ⟨leaderNameExpr, none⟩]
  predicates := []
  order := []

/-- The row of Bob, whose company is led by Ada. -/
def bobRow : Row :=
  Store.resultRow (Token.outputNames peopleAndLeadersQuery.tokens) [.text "Bob", .text "Ada"]

theorem selection_unmixed_bob :
    Request.compileSelection model true [] peopleAndLeaders = .ok peopleAndLeadersQuery.results ∧
      bobRow.get String "name" = .ok "Bob" ∧
      bobRow.getTerm String model true (.path leaderName) = .ok "Ada" := by
  obtain ⟨hcompiles, -⟩ := Request.selection_unmixed model true peopleAndLeaders
  have hcompile : Request.compileSelection model true [] peopleAndLeaders =
      .ok peopleAndLeadersQuery.results := by decide +kernel
  obtain ⟨-, hholds⟩ := hcompiles _ hcompile peopleAndLeadersQuery rfl
  have hrow := hholds [.text "Bob", .text "Ada"] rfl
  have hname := hrow.get (i := 0) (v := .text "Bob") rfl rfl String
  have hleader := hrow.getTerm (i := 1) (v := .text "Ada") rfl rfl rfl _ rfl String
  exact ⟨hcompile, hname, hleader⟩

end Staff

end LiveQuery
