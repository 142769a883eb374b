import LiveQuery.Proofs.Affected
import LiveQuery.Store.Basic

/-!
# Results of fetches

A fetch reads the rows of a query one after the other.  Whether it succeeds and what it gives, up to
order, depends on the rows of the query with their multiplicities only (`Store.results_perm`).
So a query that does not ask for the moment gives the same results at any moment, and an action that
does not affect it leaves them as they are.

## Main definitions

* `Database.Gives`: a query gives certain results at any moment, up to their order.

## Main results

* `Request.results_ne_nil`: the query of a request that selects something has results.
* `Database.gives_of_results`: what was fetched once can be fetched again.
* `Database.Gives.after`: actions that do not affect a query leave its results.
-/

namespace LiveQuery

/-! ### Requests -/

namespace Request

variable {ι : Type} {m : Model ι} {root : ι}

theorem length_compileSelection {selection : List Selected} {taken : List String}
    {results : List ResultColumn} (h : compileSelection m root taken selection = .ok results) :
    results.length = selection.length := by
  induction selection generalizing taken results with
  | nil =>
    obtain rfl := Except.ok.inj h
    rfl
  | cons s rest ih =>
    obtain ⟨e, -, hrest⟩ := exists_of_bind_eq_ok h
    dsimp only at hrest
    split at hrest
    · cases hrest
    · obtain ⟨results', hresults', rfl⟩ := exists_of_map_eq_ok hrest
      exact congrArg (· + 1) (ih hresults')

/-- A request that selects something compiles to a query with results. -/
theorem results_ne_nil {request : Request} {q : Query} (hselection : request.selection ≠ [])
    (h : request.compile m root = .ok q) : q.results ≠ [] := by
  obtain ⟨results, hresults, hrest⟩ := exists_of_bind_eq_ok h
  obtain ⟨predicates, -, horder⟩ := exists_of_bind_eq_ok hrest
  obtain ⟨order, -, rfl⟩ := exists_of_map_eq_ok horder
  have hlength := length_compileSelection hresults
  rw [← List.length_pos_iff, hlength]
  exact List.length_pos_iff.mpr hselection

end Request

namespace Store

variable {ι α : Type} {m : Model ι} {root : ι}

/-- A fetch is about the query of its request. -/
theorem fetch_eq {request : Request} {q : Query} (h : request.compile m root = .ok q) (s : Store)
    (moment : Binary64) (decode : Row → Except DecodeError α) :
    s.fetch m root moment request decode = results s.database moment q decode := by
  rw [fetch, h]

end Store

/-! ### Results up to their order -/

namespace Store

variable {α : Type}

theorem decodeRows_eq_ok_iff {decode : Row → Except DecodeError α} {rows : List Row} {l : List α} :
    decodeRows decode rows = .ok l ↔ List.Forall₂ (fun row a => decode row = .ok a) rows l := by
  induction rows generalizing l with
  | nil =>
    rw [decodeRows, List.forall₂_nil_left_iff, Except.ok.injEq]
    exact eq_comm
  | cons row rows ih =>
    rw [decodeRows, List.forall₂_cons_left_iff]
    cases hrow : decode row with
    | error e => simp
    | ok a =>
      cases hrows : decodeRows decode rows with
      | error e => simpa [Except.map, hrows] using fun l' h => absurd (ih.mpr h) (by simp [hrows])
      | ok l' =>
        have hiff : ∀ l'', List.Forall₂ (fun row a => decode row = .ok a) rows l'' ↔ l' = l'' :=
          fun l'' => by rw [← ih, hrows, Except.ok.injEq]
        simp [Except.map, hiff, eq_comm]

/-- Rows in another order are read in that order. -/
theorem decodeRows_perm {decode : Row → Except DecodeError α} {rows rows' : List Row} {l : List α}
    (hperm : rows'.Perm rows) (h : decodeRows decode rows = .ok l) :
    ∃ l', decodeRows decode rows' = .ok l' ∧ l'.Perm l := by
  obtain ⟨l', hl', hperm'⟩ := List.perm_comp_forall₂ hperm (decodeRows_eq_ok_iff.mp h)
  exact ⟨l', decodeRows_eq_ok_iff.mpr hl', hperm'⟩

/-- Where a query gives the same rows, it gives the same results, up to their order. -/
theorem results_perm {db db' : Database} {moment moment' : Binary64} {q : Query}
    {decode : Row → Except DecodeError α} {l : List α} (hresults : q.results ≠ [])
    (hbag : db.bag moment q = db'.bag moment' q) (h : results db moment q decode = .ok l) :
    ∃ l', results db' moment' q decode = .ok l' ∧ l'.Perm l := by
  have hnames : ∀ db : Database, db.resultNames q = q.names := by
    intro db
    rw [Database.resultNames, if_neg (by simpa using hresults)]
  unfold results at h ⊢
  unfold Database.bag at hbag
  cases hrun : db.run moment q with
  | error e => simp [hrun] at h
  | ok rows =>
    cases hrun' : db'.run moment' q with
    | error e => simp [hrun, hrun', Except.map] at hbag
    | ok rows' =>
      have hperm : rows'.Perm rows := by
        rw [hrun, hrun'] at hbag
        exact Multiset.coe_eq_coe.mp (Except.ok.inj hbag).symm
      simp only [hrun, hnames] at h
      cases hdecode : decodeRows decode (rows.map (resultRow q.names)) with
      | error e => simp [hdecode] at h
      | ok l₀ =>
        obtain rfl : l₀ = l := by simpa [hdecode] using h
        obtain ⟨l', hl', hperm'⟩ := decodeRows_perm (hperm.map (resultRow q.names)) hdecode
        exact ⟨l', by simp [hnames, hl'], hperm'⟩

end Store

namespace Database

variable {α : Type} {db : Database} {q : Query} {decode : Row → Except DecodeError α} {l : List α}

/-- The query gives these results at any moment, up to their order. -/
def Gives (db : Database) (q : Query) (decode : Row → Except DecodeError α) (l : List α) : Prop :=
  ∀ moment, ∃ rows, Store.results db moment q decode = .ok rows ∧ rows.Perm l

/-- Results that were fetched once can be fetched again, whatever the moment. -/
theorem gives_of_results {moment : Binary64} (hresults : q.results ≠ []) (hnow : q.nowFree = true)
    (hanswers : db.AnswersRowwise q) (hkeys : db.JoinsByKey q)
    (h : Store.results db moment q decode = .ok l) : db.Gives q decode l := by
  intro moment'
  have hbag : db.bag moment q = db.bag moment' q :=
    bag_congr (SameSchema.refl db) hanswers hanswers hkeys (AgreesOn.refl db _) hnow moment moment'
  exact Store.results_perm hresults hbag h

/-- An action that does not affect the query leaves its results as they are. -/
theorem Gives.after {moment : Binary64} {a : Action} (h : db.Gives q decode l)
    (hresults : q.results ≠ []) (hnow : q.nowFree = true) (haffected : q.isAffectedBy a = false)
    (hanswers : db.AnswersRowwise q) (hanswers' : (db.after moment a).AnswersRowwise q)
    (hkeys : db.JoinsByKey q) (hwrites : db.WritesNamed moment a q) :
    (db.after moment a).Gives q decode l := by
  intro moment'
  obtain ⟨rows, hrows, hperm⟩ := h moment'
  have hbag : db.bag moment' q = (db.after moment a).bag moment' q :=
    bag_congr (db.after_sameSchema moment a) hanswers hanswers' hkeys
      (agreesOn_after haffected hwrites) hnow moment' moment'
  obtain ⟨rows', hrows', hperm'⟩ := Store.results_perm hresults hbag hrows
  exact ⟨rows', hrows', hperm'.trans hperm⟩

end Database

end LiveQuery
