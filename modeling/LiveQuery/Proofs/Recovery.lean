import LiveQuery.Proofs.Freshness

/-!
# Observations after failed fetches

A fetch of an observation fails when a row cannot be read, and the failure is delivered.  The next
fetch may succeed again.  Whether its results are delivered depends on the last results that were,
however many failures came since: a failure leaves them in place.  So results that differ from them
are delivered, but an observation that comes back to the very results it had before a failure says
nothing, and the failure stays the last thing it said (`Session.silent_after_failure`).

The invariant of an observation that may have failed is `Observation.Settled`: unless an action
that affects the query waits, the last results are current, or else the last item is a failure that
is.

## Main definitions

* `Store.Agree`: outcomes of fetches that are the same up to the order of rows.
* `Observation.Due`: whether an observation has to fetch.
* `Session.items`: the results and failures that an observation delivers.

## Main results

* `Observation.steps_of_due`: what a fetch that is due brings.
* `Session.observation_recovers`: what an observation delivers, and what it leaves standing.
-/

namespace LiveQuery

/-! ### Outcomes of fetches -/

namespace Store

variable {α : Type}

/-- Outcomes that are the same up to the order of rows.  The first row that cannot be read is
reported, so in another order it may be another one. -/
inductive Agree : Except StoreError (List α) → Except StoreError (List α) → Prop
  | rows {l l' : List α} (hperm : l.Perm l') : Agree (.ok l) (.ok l')
  | failed (error : StoreError) : Agree (.error error) (.error error)
  | unread (error error' : DecodeError) : Agree (.error (.decode error)) (.error (.decode error'))

theorem Agree.trans {a b c : Except StoreError (List α)} (h : Agree a b) (h' : Agree b c) :
    Agree a c := by
  cases h with
  | rows hperm =>
    cases h' with
    | rows hperm' => exact .rows (hperm.trans hperm')
  | failed error => exact h'
  | unread error error' =>
    cases h' with
    | failed => exact .unread error error'
    | unread _ error'' => exact .unread error error''

/-- Where a query gives the same rows, fetches agree. -/
theorem results_agree {db db' : Database} {moment moment' : Binary64} {q : Query}
    (decode : Row → Except DecodeError α) (hresults : q.results ≠ [])
    (hbag : db.bag moment q = db'.bag moment' q) :
    Agree (results db moment q decode) (results db' moment' q decode) := by
  cases hfetch : results db moment q decode with
  | ok l =>
    obtain ⟨l', hl', hperm⟩ := results_perm hresults hbag hfetch
    rw [hl']
    exact .rows hperm.symm
  | error error =>
    cases hfetch' : results db' moment' q decode with
    | ok l' =>
      obtain ⟨l, hl, -⟩ := results_perm hresults hbag.symm hfetch'
      rw [hl] at hfetch
      cases hfetch
    | error error' =>
      unfold results at hfetch hfetch'
      unfold Database.bag at hbag
      cases hrun : db.run moment q <;> cases hrun' : db'.run moment' q <;>
        simp only [hrun, hrun', Except.map] at hfetch hfetch' hbag
      case error.error e e' =>
        obtain rfl := Except.error.inj hfetch
        obtain rfl := Except.error.inj hfetch'
        rw [Except.error.inj hbag]
        exact .failed _
      case error.ok => cases hbag
      case ok.error => cases hbag
      case ok.ok =>
        split at hfetch <;> cases hfetch
        split at hfetch' <;> cases hfetch'
        exact .unread _ _

end Store

namespace Database

variable {α : Type} {db : Database} {q : Query} {decode : Row → Except DecodeError α}
  {outcome : Except StoreError (List α)}

/-- At any moment, a fetch has this outcome. -/
def Shows (db : Database) (q : Query) (decode : Row → Except DecodeError α)
    (outcome : Except StoreError (List α)) : Prop :=
  ∀ moment, Store.Agree outcome (Store.results db moment q decode)

theorem Gives.shows {l : List α} (h : db.Gives q decode l) : db.Shows q decode (.ok l) := by
  intro moment
  obtain ⟨rows, hrows, hperm⟩ := h moment
  rw [hrows]
  exact .rows hperm.symm

/-- What a fetch comes to once, it comes to at any moment. -/
theorem shows_results (moment : Binary64) (hresults : q.results ≠ []) (hnow : q.nowFree = true)
    (hanswers : db.AnswersRowwise q) (hkeys : db.JoinsByKey q) :
    db.Shows q decode (Store.results db moment q decode) := by
  intro moment'
  have hbag : db.bag moment q = db.bag moment' q :=
    bag_congr (SameSchema.refl db) hanswers hanswers hkeys (AgreesOn.refl db _) hnow moment moment'
  exact Store.results_agree decode hresults hbag

/-- An action that does not affect the query leaves the outcome of a fetch as it is. -/
theorem Shows.after {moment : Binary64} {a : Action} (h : db.Shows q decode outcome)
    (hresults : q.results ≠ []) (hnow : q.nowFree = true) (haffected : q.isAffectedBy a = false)
    (hanswers : db.AnswersRowwise q) (hanswers' : (db.after moment a).AnswersRowwise q)
    (hkeys : db.JoinsByKey q) (hwrites : db.WritesNamed moment a q) :
    (db.after moment a).Shows q decode outcome := by
  intro moment'
  have hbag : db.bag moment' q = (db.after moment a).bag moment' q :=
    bag_congr (db.after_sameSchema moment a) hanswers hanswers' hkeys
      (agreesOn_after haffected hwrites) hnow moment' moment'
  exact (h moment').trans (Store.results_agree decode hresults hbag)

end Database

/-! ### What is delivered -/

/-- The outcome of a fetch that a delivery reports, if it does. -/
def Delivery.item? {α : Type} : Delivery α → Option (Except StoreError (List α))
  | results rows => some (.ok rows)
  | failed error => some (.error error)
  | _ => none

/-- The outcome of a fetch that a call delivers from the observation in a place. -/
def Event.item? {ι α : Type} (i : Nat) (e : Event ι α) :
    Outcome α → Option (Except StoreError (List α))
  | .delivery d => if e.call.place? = some i then d.item? else none
  | _ => none

/-- What is delivered as results is what is delivered without an error. -/
theorem Event.toList_delivered? {ι α : Type} (i : Nat) (e : Event ι α) (out : Outcome α) :
    (e.delivered? i out).toList = (e.item? i out).toList.filterMap Except.toOption := by
  unfold delivered? item?
  cases out with
  | delivery d =>
    by_cases hplace : e.call.place? = some i
    · simp only [if_pos hplace]
      cases d <;> rfl
    · simp only [if_neg hplace]
      rfl
  | _ => rfl

/-- Calls that are no steps of an observation deliver nothing. -/
theorem Event.item?_of_quiet {ι α : Type} {i : Nat} {e : Event ι α} {out : Outcome α}
    (h : ∀ d, out ≠ .delivery d) : e.item? i out = none := by
  unfold item?
  split
  next d => exact absurd rfl (h d)
  next => rfl

/-- Calls to others deliver nothing from an observation. -/
theorem Event.item?_of_ne {ι α : Type} {i : Nat} {e : Event ι α}
    (hplace : e.call.place? ≠ some i) (out : Outcome α) : e.item? i out = none := by
  unfold item?
  split
  · exact if_neg hplace
  · rfl

namespace Observation

variable {α : Type} {moment : Binary64} {o : Observation α} {s : Store}

/-! ### Steps that fetch -/

/-- No action waits that affects the query. -/
def Quiet (o : Observation α) (s : Store) : Prop :=
  (s.log.inbox o.subscriber).any (fun entry => o.query.isAffectedBy entry.action) = false

/-- A fetch has to be made: an action that affects the query waits, or was taken already. -/
def Due (o : Observation α) (s : Store) : Prop :=
  o.phase = .stale ∨ o.phase = .waiting ∧ ¬o.Quiet s

variable [DecidableEq α]

/-- What is reported as a failure is the failure of a fetch. -/
theorem step_failed {error : StoreError} (h : (o.step moment s).1 = .failed error) :
    Store.results s.database moment o.query o.decode = .error error ∧
      (o.step moment s).2.1.phase = .waiting := by
  unfold step at h ⊢
  cases hphase : o.phase with
  | fresh => simp [hphase] at h
  | ended => simp [hphase] at h
  | waiting =>
    simp only [hphase, takeActions] at h
    split at h
    · split at h <;> cases h
    · cases h
  | stale =>
    simp only [hphase, refetch] at h ⊢
    split at h
    next hopen =>
      rw [if_pos hopen]
      split at h
      next => split at h <;> cases h
      next error' herror =>
        obtain rfl := Delivery.failed.inj h
        exact ⟨herror, rfl⟩
    next => cases h

theorem steps_failed {count : Nat} {error : StoreError}
    (h : (o.steps moment count s).1 = .failed error) :
    Store.results s.database moment o.query o.decode = .error error ∧
      (o.steps moment count s).2.1.phase = .waiting := by
  induction count generalizing o s with
  | zero => cases h
  | succ count ih =>
    by_cases hsilent : (o.step moment s).1 = .silent
    · rw [steps_succ_of_silent count hsilent] at h ⊢
      obtain ⟨hsame, hdb, -⟩ := o.step_sameBut moment s
      have hrest := ih h
      rw [hdb, hsame.query, hsame.decode] at hrest
      exact hrest
    · rw [steps_succ_of_ne count hsilent] at h ⊢
      exact step_failed h

/-- **Repeated results are not delivered**, whatever was delivered since they were. -/
theorem steps_of_same {count : Nat} (hphase : o.phase ≠ .fresh)
    (hsame : Store.results s.database moment o.query o.decode = .ok o.last) :
    (o.steps moment count s).1.item? = none := by
  have hbrings := o.steps_brings moment count s
  generalize (o.steps moment count s).2.1 = o' at hbrings
  cases hd : (o.steps moment count s).1 with
  | results rows =>
    rw [hd] at hbrings
    cases hbrings with
    | first hfresh => exact absurd hfresh hphase
    | anew _ hne hrows =>
      rw [hsame] at hrows
      exact absurd (Except.ok.inj hrows).symm hne
    | nothing hnone _ => cases hnone
  | failed error =>
    have herror := (steps_failed hd).1
    rw [hsame] at herror
    cases herror
  | _ => rfl

/-- A fetch reports its outcome, unless it comes to the last results again. -/
theorem step_of_stale (hphase : o.phase = .stale) (hopen : s.isOpen = true)
    (hnew : Store.results s.database moment o.query o.decode ≠ .ok o.last) :
    (o.step moment s).1.item? = some (Store.results s.database moment o.query o.decode) := by
  simp only [step, hphase, refetch, if_pos hopen]
  cases hfetch : Store.results s.database moment o.query o.decode with
  | error error => rfl
  | ok rows =>
    have hne : rows ≠ o.last := fun heq => hnew (by rw [hfetch, heq])
    simp only [if_neg hne]
    rfl

/-- Actions that affect the query make a fetch due as soon as they are taken. -/
theorem step_of_waiting (moment : Binary64) (hphase : o.phase = .waiting) (hquiet : ¬o.Quiet s) :
    (o.step moment s).1 = .silent ∧ (o.step moment s).2.1 = { o with phase := .stale } := by
  rw [Quiet, Bool.not_eq_false] at hquiet
  simp only [step, hphase, takeActions]
  split
  next hinbox =>
    rw [hinbox] at hquiet
    cases hquiet
  next =>
    rw [if_pos hquiet]
    exact ⟨rfl, rfl⟩

theorem steps_of_stale {count : Nat} (hphase : o.phase = .stale) (hopen : s.isOpen = true)
    (hnew : Store.results s.database moment o.query o.decode ≠ .ok o.last) :
    (o.steps moment (count + 1) s).1.item? =
      some (Store.results s.database moment o.query o.decode) := by
  have hitem := step_of_stale hphase hopen hnew
  have hloud : (o.step moment s).1 ≠ .silent := by
    intro hsilent
    rw [hsilent] at hitem
    cases hitem
  rw [steps_succ_of_ne count hloud, hitem]

/-- **What a fetch that is due brings**: its outcome, unless it comes to the last results again.
Two steps are enough to take the actions and to fetch. -/
theorem steps_of_due {count : Nat} (hdue : o.Due s) (hopen : s.isOpen = true) :
    (o.steps moment (count + 2) s).1.item? =
      if Store.results s.database moment o.query o.decode = .ok o.last then none
      else some (Store.results s.database moment o.query o.decode) := by
  split
  next hsame =>
    refine steps_of_same (fun hfresh => ?_) hsame
    rcases hdue with hphase | ⟨hphase, -⟩ <;> rw [hfresh] at hphase <;> cases hphase
  next hnew =>
    rcases hdue with hphase | ⟨hphase, hquiet⟩
    · exact steps_of_stale hphase hopen hnew
    · obtain ⟨hsilent, hstale⟩ := step_of_waiting moment hphase hquiet
      obtain ⟨-, hdb, hlog⟩ := o.step_sameBut moment s
      have hopen' : (o.step moment s).2.2.isOpen = true := hlog.isOpen.trans hopen
      rw [steps_succ_of_silent (count + 1) hsilent, hstale]
      rw [← hdb] at hnew ⊢
      exact steps_of_stale rfl hopen' hnew

/-! ### Steps after a failure -/

/-- Unless an action waits that affects the query, the last results are what the query gives, or the
last item is a failure and fetches still fail like this. -/
def Settled (items : List (Except StoreError (List α))) (o : Observation α) (s : Store) : Prop :=
  o.phase = .fresh ∨ o.phase = .waiting → o.Quiet s →
    s.database.Gives o.query o.decode o.last ∨
      o.phase = .waiting ∧ ∃ error, items.getLast? = some (.error error) ∧
        s.database.Shows o.query o.decode (.error error)

/-- While nothing that affects the query waits, a step takes the other actions, or it finds none. -/
theorem step_of_quiet (moment : Binary64) (hphase : o.phase = .waiting) (hquiet : o.Quiet s) :
    (o.step moment s).1 = .silent ∧ (o.step moment s).2.1 = o ∧
        (o.step moment s).2.2.log.inbox o.subscriber = [] ∨
      (o.step moment s).1 ≠ .silent ∧ (o.step moment s).1.item? = none ∧
        ((o.step moment s).2.1.phase = .waiting ∨ (o.step moment s).2.1.phase = .ended) := by
  rw [Quiet] at hquiet
  simp only [step, hphase, takeActions]
  split
  · split
    · exact Or.inr ⟨(fun h => by cases h), rfl, Or.inl hphase⟩
    · exact Or.inr ⟨(fun h => by cases h), rfl, Or.inr rfl⟩
  · rw [hquiet, ← hphase]
    exact Or.inl ⟨rfl, rfl, s.log.inbox_drain o.subscriber⟩

/-- While nothing that affects the query waits, steps look for actions and bring nothing. -/
theorem steps_of_quiet (moment : Binary64) (count : Nat) (hphase : o.phase = .waiting)
    (hquiet : o.Quiet s) :
    (o.steps moment count s).1.item? = none ∧
      ((o.steps moment count s).2.1.phase = .waiting ∨
        (o.steps moment count s).2.1.phase = .ended) := by
  induction count generalizing o s with
  | zero => exact ⟨rfl, Or.inl hphase⟩
  | succ count ih =>
    rcases step_of_quiet moment hphase hquiet with ⟨hsilent, hsame, hempty⟩ | ⟨hloud, hrest⟩
    · rw [steps_succ_of_silent count hsilent, hsame]
      refine ih hphase ?_
      rw [Quiet, hempty]
      rfl
    · rw [steps_succ_of_ne count hloud]
      exact hrest

/-- **Steps keep an observation settled**, whether their fetches succeed or fail. -/
theorem steps_settled {count : Nat} {items : List (Except StoreError (List α))}
    (hsettled : o.Settled items s)
    (hgives : ∀ rows, Store.results s.database moment o.query o.decode = .ok rows →
      s.database.Gives o.query o.decode rows)
    (hshows : ∀ error, Store.results s.database moment o.query o.decode = .error error →
      s.database.Shows o.query o.decode (.error error)) :
    (o.steps moment count s).2.1.Settled (items ++ (o.steps moment count s).1.item?.toList)
      (o.steps moment count s).2.2 := by
  obtain ⟨hsame, hdb, -⟩ := o.steps_sameBut moment count s
  intro hphase' hquiet'
  by_cases hfailed : ∃ error, (o.steps moment count s).1 = .failed error
  · obtain ⟨error, herror⟩ := hfailed
    obtain ⟨hfetch, hwaiting⟩ := steps_failed herror
    refine Or.inr ⟨hwaiting, error, ?_, ?_⟩
    · rw [herror]
      exact List.getLast?_concat
    · rw [hdb, hsame.query, hsame.decode]
      exact hshows error hfetch
  · by_cases hcurrent : o.Current s
    · have hfetch := fun error herror => hfailed ⟨error, herror⟩
      exact Or.inl (steps_current hcurrent hgives hfetch hphase' hquiet')
    · -- the last item is a failure that still stands, and nothing happens
      obtain ⟨hphase, hcurrent⟩ := Classical.not_imp.mp hcurrent
      obtain ⟨hquiet, hgone⟩ := Classical.not_imp.mp hcurrent
      obtain ⟨hwaiting, error, hlast, hstands⟩ := (hsettled hphase hquiet).resolve_left hgone
      obtain ⟨hnone, hafter⟩ := steps_of_quiet moment count hwaiting hquiet
      refine Or.inr ⟨?_, error, ?_, ?_⟩
      · refine hafter.resolve_right fun hended => ?_
        rw [hended] at hphase'
        rcases hphase' with h | h <;> cases h
      · rw [hnone, Option.toList_none, List.append_nil]
        exact hlast
      · rw [hdb, hsame.query, hsame.decode]
        exact hstands

end Observation

/-! ### Sessions -/

namespace Session

variable {ι α : Type} [DecidableEq α]

/-- The results and failures that the observation in a place delivers during some calls. -/
def items (m : Model ι) (i : Nat) (x : Session α) :
    List (Event ι α) → List (Except StoreError (List α))
  | [] => []
  | e :: rest => (e.item? i (x.perform m e).1).toList ++ (x.perform m e).2.items m i rest

/-- The observation in a place has to fetch. -/
def Due (i : Nat) (x : Session α) : Prop :=
  x.store.isOpen = true ∧ ∃ o, x.observations[i]? = some (some o) ∧ o.Due x.store

/-- The observation in a place is one of a query and has delivered certain results so far. -/
structure Tells (i : Nat) (q : Query) (decode : Row → Except DecodeError α) (first : List α)
    (told : List (List α)) (x : Session α) : Prop where
  placed : i < x.observations.length
  fits : ∀ o, x.observations[i]? = some (some o) →
    (o.query = q ∧ o.decode = decode) ∧ o.Told first told

/-- The observation in a place is settled. -/
def Settles (i : Nat) (items : List (Except StoreError (List α))) (x : Session α) : Prop :=
  ∀ o, x.observations[i]? = some (some o) → o.Settled items x.store

variable {m : Model ι} {x : Session α} {e : Event ι α} {i : Nat} {q : Query}
  {decode : Row → Except DecodeError α} {first : List α} {told : List (List α)}
  {delivered : List (Except StoreError (List α))}

theorem items_concat (es : List (Event ι α)) :
    x.items m i (es ++ [e]) =
      x.items m i es ++ (e.item? i ((x.run m es).perform m e).1).toList := by
  induction es generalizing x with
  | nil => exact List.append_nil _
  | cons e' es ih => rw [List.cons_append, items, ih, items, run, List.append_assoc]

/-- The results delivered are the items that are no failures. -/
theorem snapshots_eq_filterMap (es : List (Event ι α)) :
    x.snapshots m i es = (x.items m i es).filterMap Except.toOption := by
  induction es using List.reverseRecOn with
  | nil => rfl
  | append_singleton es e ih =>
    rw [snapshots_concat, items_concat, List.filterMap_append, ih, Event.toList_delivered?]

/-! ### What was told -/

/-- An observation that is there after a call to it was there before, and it has taken some steps
unless nothing happened. -/
theorem Move.observation_of_eq {x' : Session α} {out : Outcome α} (hmove : Move m x e out x')
    (hplace : e.call.place? = some i) {o' : Observation α}
    (ho' : x'.observations[i]? = some (some o')) :
    (x' = x ∧ ∀ d, out ≠ .delivery d) ∨
      ∃ o count, x.observations[i]? = some (some o) ∧
        out = .delivery (o.steps e.moment count x.store).1 ∧
        o' = (o.steps e.moment count x.store).2.1 ∧
        x'.store = (o.steps e.moment count x.store).2.2 := by
  rcases hmove.of_place? hplace with hstill | ⟨o, count, ho, rfl, rfl⟩ | ⟨o, ho, rfl, rfl⟩
  · exact Or.inl hstill
  · rw [List.getElem?_set_self (List.getElem?_eq_some_iff.mp ho).1] at ho'
    exact Or.inr ⟨o, count, ho, rfl, (Option.some.inj (Option.some.inj ho')).symm, rfl⟩
  · rw [List.getElem?_set_self (List.getElem?_eq_some_iff.mp ho).1] at ho'
    cases ho'

/-- Every call leaves the observation with what it has delivered. -/
theorem Tells.perform (h : x.Tells i q decode first told) :
    (x.perform m e).2.Tells i q decode first
      (told ++ (e.delivered? i (x.perform m e).1).toList) := by
  have hmove := move_perform m x e
  refine ⟨Nat.lt_of_lt_of_le h.placed hmove.length_le, fun o' ho' => ?_⟩
  by_cases hplace : e.call.place? = some i
  · rcases hmove.observation_of_eq hplace ho' with ⟨hsame, hquiet⟩ | ⟨o, count, ho, hout, rfl, -⟩
    · rw [Event.delivered?_of_quiet hquiet, Option.toList_none, List.append_nil]
      exact h.fits o' (hsame ▸ ho')
    · have hdelivered : e.delivered? i (x.perform m e).1 =
          (o.steps e.moment count x.store).1.rows? := by
        rw [hout]
        exact if_pos hplace
      obtain ⟨⟨rfl, rfl⟩, htold⟩ := h.fits o ho
      have hsame := (o.steps_sameBut e.moment count x.store).1
      rw [hdelivered]
      exact ⟨⟨hsame.query, hsame.decode⟩,
        ((o.steps_brings e.moment count x.store).told htold).1⟩
  · rw [Event.delivered?_of_ne hplace, Option.toList_none, List.append_nil]
    rw [hmove.observation_of_ne h.placed hplace] at ho'
    exact h.fits o' ho'

/-- After any calls the observation stands with what it has delivered. -/
theorem Tells.run (h : x.Tells i q decode first []) (es : List (Event ι α)) :
    (x.run m es).Tells i q decode first (x.snapshots m i es) := by
  induction es using List.reverseRecOn with
  | nil => exact h
  | append_singleton es e ih =>
    rw [run_concat, snapshots_concat]
    exact ih.perform

/-! ### Settled observations -/

/-- A fetch during calls that the engine serves comes to the same at any moment. -/
theorem Serves.shows {es : List (Event ι α)} (h : x.Serves m q es) (hresults : q.results ≠ [])
    (hnow : q.nowFree = true) {moment : Binary64} {outcome : Except StoreError (List α)}
    (hfetch : Store.results x.database moment q decode = outcome) :
    x.database.Shows q decode outcome :=
  hfetch ▸ Database.shows_results moment hresults hnow (h.answers [] List.nil_prefix)
    (h.keyed [] List.nil_prefix)

/-- Calls to others keep the observation settled: an action that they execute waits, or it does not
affect the query. -/
theorem Settles.perform_of_ne (h : x.Settles i delivered) (htells : x.Tells i q decode first told)
    (hlinked : x.Linked) (hresults : q.results ≠ []) (hnow : q.nowFree = true)
    (hserves : x.Serves m q [e]) (hplace : e.call.place? ≠ some i) :
    (x.perform m e).2.Settles i delivered := by
  intro o ho
  rw [(move_perform m x e).observation_of_ne htells.placed hplace] at ho
  obtain ⟨⟨rfl, rfl⟩, -⟩ := htells.fits o ho
  intro hphase hquiet
  obtain ⟨hbefore, hdb⟩ := hlinked.quiet_of_ne hserves hplace ho hquiet
  have hstands := h o ho hphase hbefore
  change (x.perform m e).2.database.Gives _ _ _ ∨ _ ∧ ∃ _, _ ∧ (x.perform m e).2.database.Shows _ _ _
  rcases hdb with hdb | ⟨a, hdb, haffected, hanswers', hwrites⟩
  · rw [hdb]
    exact hstands
  · rw [hdb]
    have hanswers := hserves.answers [] List.nil_prefix
    have hkeys := hserves.keyed [] List.nil_prefix
    refine hstands.imp (fun hgives => ?_) fun ⟨hwaiting, error, hlast, hshows⟩ => ?_
    · exact hgives.after hresults hnow haffected hanswers hanswers' hkeys hwrites
    · exact ⟨hwaiting, error, hlast,
        hshows.after hresults hnow haffected hanswers hanswers' hkeys hwrites⟩

/-- **Every call keeps the observation settled.** -/
theorem Settles.perform (h : x.Settles i delivered) (htells : x.Tells i q decode first told)
    (hlinked : x.Linked) (hresults : q.results ≠ []) (hnow : q.nowFree = true)
    (hserves : x.Serves m q [e]) :
    (x.perform m e).2.Settles i (delivered ++ (e.item? i (x.perform m e).1).toList) := by
  by_cases hplace : e.call.place? = some i
  · intro o' ho'
    rcases (move_perform m x e).observation_of_eq hplace ho' with
      ⟨hsame, hquiet⟩ | ⟨o, count, ho, hout, rfl, hstore⟩
    · rw [Event.item?_of_quiet hquiet, Option.toList_none, List.append_nil, hsame]
      exact h o' (hsame ▸ ho')
    · have hitem : e.item? i (x.perform m e).1 = (o.steps e.moment count x.store).1.item? := by
        rw [hout]
        exact if_pos hplace
      obtain ⟨⟨rfl, rfl⟩, -⟩ := htells.fits o ho
      rw [hitem, hstore]
      exact Observation.steps_settled (h o ho) (fun rows => hserves.gives hresults hnow)
        fun error => hserves.shows hresults hnow
  · rw [Event.item?_of_ne hplace, Option.toList_none, List.append_nil]
    exact h.perform_of_ne htells hlinked hresults hnow hserves hplace

/-- After any calls the observation is settled. -/
theorem Settles.run (h : x.Settles i []) (htells : x.Tells i q decode first [])
    (hlinked : x.Linked) (hresults : q.results ≠ []) (hnow : q.nowFree = true)
    {es : List (Event ι α)} (hserves : x.Serves m q es) :
    (x.run m es).Settles i (x.items m i es) := by
  induction es using List.reverseRecOn with
  | nil => exact h
  | append_singleton es e ih =>
    rw [run_concat, items_concat]
    exact (ih (hserves.of_prefix (List.prefix_append es [e]))).perform (htells.run es)
      (linked_run m hlinked es) hresults hnow hserves.last

/-! ### Recovery -/

/-- A new observation has told nothing. -/
theorem tells_observe {root : ι} {request : Request} {moment : Binary64} {x' : Session α}
    (hcompile : request.compile m root = .ok q)
    (hobserve : x.perform m ⟨moment, .observe root request decode⟩ = (.observing i, x')) :
    ∃ first, x'.Tells i q decode first [] := by
  obtain ⟨first, subscriber, -, -, hself⟩ := observing_eq hcompile hobserve
  refine ⟨first, (List.getElem?_eq_some_iff.mp hself).1, fun o ho => ?_⟩
  obtain rfl := Option.some.inj (Option.some.inj (hself.symm.trans ho))
  exact ⟨⟨rfl, rfl⟩, ⟨fun _ => ⟨rfl, rfl⟩, fun hphase => absurd rfl hphase⟩⟩

/-- A new observation is settled, as its first results are those of now. -/
theorem settles_observe {root : ι} {request : Request} {moment : Binary64} {x' : Session α}
    (hresults : q.results ≠ []) (hnow : q.nowFree = true)
    (hcompile : request.compile m root = .ok q)
    (hobserve : x.perform m ⟨moment, .observe root request decode⟩ = (.observing i, x'))
    (hserves : x'.Serves m q []) : x'.Settles i [] := by
  obtain ⟨first, -, -, hfollows⟩ := follows_observe hresults hnow hcompile hobserve hserves
  intro o ho hphase hquiet
  exact Or.inl ((hfollows.fits o ho).2.2 hphase hquiet)

/-- A fetch that is due brings its outcome, unless this is the last results again. -/
theorem Tells.item?_of_due (h : x.Tells i q decode first told) {count : Nat}
    (hcall : e.call = .advance i (count + 2)) (hdue : x.Due i) :
    ∃ last, told.getLast? = some last ∧
      e.item? i (x.perform m e).1 =
        if Store.results x.database e.moment q decode = .ok last then none
        else some (Store.results x.database e.moment q decode) := by
  obtain ⟨hopen, o, ho, hdue⟩ := hdue
  obtain ⟨⟨rfl, rfl⟩, htold⟩ := h.fits o ho
  obtain ⟨moment, call⟩ := e
  obtain rfl : call = .advance i (count + 2) := hcall
  have hout : (x.perform m ⟨moment, .advance i (count + 2)⟩).1 =
      .delivery (o.steps moment (count + 2) x.store).1 := by
    simp only [Session.perform, ho]
  refine ⟨o.last, htold.last fun hfresh => ?_, ?_⟩
  · rcases hdue with hphase | ⟨hphase, -⟩ <;> rw [hfresh] at hphase <;> cases hphase
  · rw [hout]
    exact (if_pos rfl).trans (Observation.steps_of_due hdue hopen)

omit [DecidableEq α] in
/-- While the inbox of an observation is empty, what it said last stands, or this is a failure and
the last results it delivered are those of now. -/
theorem Settles.stands (h : x.Settles i delivered)
    (htells : x.Tells i q decode first (delivered.filterMap Except.toOption)) {o : Observation α}
    (ho : x.observations[i]? = some (some o)) (hphase : o.phase = .waiting)
    (hempty : x.store.log.inbox o.subscriber = []) :
    ∃ item last, delivered.getLast? = some item ∧
      (delivered.filterMap Except.toOption).getLast? = some last ∧
      (x.database.Shows q decode item ∨
        (∃ error, item = .error error) ∧ x.database.Shows q decode (.ok last)) := by
  obtain ⟨⟨rfl, rfl⟩, htold⟩ := htells.fits o ho
  have hlast := htold.last (by rw [hphase]; exact nofun)
  have hquiet : o.Quiet x.store := by
    rw [Observation.Quiet, hempty]
    rfl
  rcases List.eq_nil_or_concat' delivered with rfl | ⟨before, item, rfl⟩
  · cases hlast
  · refine ⟨item, o.last, List.getLast?_concat, hlast, ?_⟩
    rcases h o ho (Or.inr hphase) hquiet with hgives | ⟨-, error, hitem, hshows⟩
    · cases item with
      | error error => exact Or.inr ⟨⟨error, rfl⟩, hgives.shows⟩
      | ok rows =>
        rw [List.filterMap_append] at hlast
        obtain rfl : rows = o.last :=
          Option.some.inj (List.getLast?_concat.symm.trans hlast)
        exact Or.inl hgives.shows
    · rw [List.getLast?_concat] at hitem
      rw [Option.some.inj hitem]
      exact Or.inl hshows

/-- **How observations recover.**  Let an observation of a request be started on an opened store,
after any calls and before any calls.  When it has to fetch and is polled, it delivers the outcome,
be it results or a failure, unless this is the last results that it delivered; failures since do not
count.  So whenever it has nothing to say until actions arrive, what it said last is what a fetch
would come to, or what it said last is a failure and a fetch would give the last results that it
delivered.  The latter takes a request that selects something and does not ask for the moment, and
an engine that serves it. -/
theorem observation_recovers {entities : List ι} {db opened : Database} {s : Store}
    (hopen : Store.open? m entities db = (.ok s, opened)) (before : List (Event ι α))
    {root : ι} {request : Request} {moment : Binary64} (hcompile : request.compile m root = .ok q)
    (hobserve : ((start s).run m before).perform m ⟨moment, .observe root request decode⟩ =
      (.observing i, x)) (es : List (Event ι α)) (e : Event ι α) :
    (∀ count, e.call = .advance i (count + 2) → (x.run m es).Due i →
      ∃ last, (x.snapshots m i es).getLast? = some last ∧
        e.item? i ((x.run m es).perform m e).1 =
          if (x.run m es).store.fetch m root e.moment request decode = .ok last then none
          else some ((x.run m es).store.fetch m root e.moment request decode)) ∧
      (request.selection ≠ [] → q.nowFree = true → x.Serves m q (es ++ [e]) →
        e.call.place? = some i → ((x.run m es).perform m e).1 = .delivery .pending →
          ∃ item last, (x.items m i (es ++ [e])).getLast? = some item ∧
            (x.snapshots m i (es ++ [e])).getLast? = some last ∧
            ((∀ moment, Store.Agree item
                ((x.run m (es ++ [e])).store.fetch m root moment request decode)) ∨
              (∃ error, item = .error error) ∧ ∀ moment, Store.Agree (.ok last)
                ((x.run m (es ++ [e])).store.fetch m root moment request decode))) := by
  have hfetch := fun s moment => Store.fetch_eq hcompile s moment decode
  obtain ⟨first, htells⟩ := tells_observe hcompile hobserve
  refine ⟨fun count hcall hdue => ?_, fun hselection hnow hserves hplace hpending => ?_⟩
  · rw [hfetch]
    exact (htells.run es).item?_of_due hcall hdue
  · obtain rfl := open?_eq_ok hopen
    have hresults := Request.results_ne_nil hselection hcompile
    have hlinked : x.Linked := by
      have hbefore := linked_run m (linked_start (α := α) (s := ⟨opened, ∅⟩) Log.wired_empty) before
      have hafter := linked_perform m hbefore ⟨moment, .observe root request decode⟩
      rwa [hobserve] at hafter
    have hsettles := (settles_observe hresults hnow hcompile hobserve
      (hserves.of_prefix List.nil_prefix)).run htells hlinked hresults hnow hserves
    have htells' := htells.run (m := m) (es ++ [e])
    obtain ⟨o, ho, hphase, hempty⟩ := (move_perform m (x.run m es) e).pending hplace hpending
    rw [← run_concat] at ho hempty
    rw [snapshots_eq_filterMap] at htells' ⊢
    obtain ⟨item, last, hitem, hlast, hstands⟩ := hsettles.stands htells' ho hphase hempty
    simp only [hfetch]
    exact ⟨item, last, hitem, hlast, hstands⟩

/-! ### An example -/

/-- Numbered notes whose text may be missing. -/
def memos : Model Unit := fun _ =>
  ⟨"Note", "id", [.value "id" .integer, ⟨"text", .value .text, true, none⟩]⟩

/-- Reads a text, which must be there. -/
def readText (row : Row) : Except DecodeError String := row.get String "text"

/-- The values of a memo. -/
def memo (id : Int64) (text : Value) : ValueSet :=
  .ofChanges memos () [.assign (.property "id") (.literal (.integer id)),
    .assign (.property "text") (.literal text)]

/-- Gives all memos a text, or none. -/
def retext (moment : Int) (text : Value) : Event Unit String :=
  ⟨.ofInt moment, .update () none
    (.ofChanges memos () [.assign (.property "text") (.literal text)])⟩

/-- A poll of the observation. -/
def poll (moment : Int) : Event Unit String := ⟨.ofInt moment, .advance 0 4⟩

/-- A store for memos, in which there are none. -/
def drawer : Store := ⟨(Store.open? memos [()] .empty).2, ∅⟩

/-- A memo is written. -/
def filed : List (Event Unit String) :=
  [⟨.ofInt 1, .insert () noIdentifier (memo 1 (.text "a"))⟩]

/-- The texts of the memos are observed from then on. -/
def watched : Session String :=
  (((start drawer).run memos filed).perform memos ⟨.ofInt 2, .observe () texts readText⟩).2

/-- The text is taken away, which makes it unreadable. -/
def unreadCalls : List (Event Unit String) := [poll 3, retext 4 .null, poll 5]

/-- The failure to read a missing text. -/
def unreadText : StoreError := .decode (.typeMismatch "text" "null")

/-- When another text is there, it has to be fetched. -/
theorem due_memos : (watched.run memos (unreadCalls ++ [retext 6 (.text "b")])).Due 0 := by
  let x := watched.run memos (unreadCalls ++ [retext 6 (.text "b")])
  obtain ⟨hopen, hany⟩ : x.store.isOpen = true ∧
      (x.observations[0]?.join.any fun o : Observation String => decide (o.phase = .waiting) &&
        (x.store.log.inbox o.subscriber).any fun entry => o.query.isAffectedBy entry.action) =
          true := by decide +kernel
  obtain ⟨o, ho, hwaits⟩ := (Option.any_eq_true _ _).mp hany
  obtain ⟨hphase, haffected⟩ := Bool.and_eq_true_iff.mp hwaits
  have hquiet : ¬o.Quiet x.store := Bool.not_eq_false _ ▸ haffected
  exact ⟨hopen, o, Option.join_eq_some_iff.mp ho, Or.inr ⟨of_decide_eq_true hphase, hquiet⟩⟩

/-- Another text is delivered after the failure; the same text as before is not, and the failure
is said last. -/
theorem observation_recovers_memos :
    (poll 7).item? 0 ((watched.run memos (unreadCalls ++ [retext 6 (.text "b")])).perform memos
        (poll 7)).1 = some (.ok ["b"]) ∧
      ∀ moment, Store.Agree (.ok ["a"]) ((watched.run memos
        (unreadCalls ++ [retext 6 (.text "a")] ++ [poll 7])).store.fetch memos () moment texts
          readText) := by
  have hopen : Store.open? memos [()] .empty = (.ok drawer, drawer.database) := by decide +kernel
  have hobserve : ((start drawer).run memos filed).perform memos
      ⟨.ofInt 2, .observe () texts readText⟩ = (.observing 0, watched) :=
    Prod.ext (by decide +kernel) rfl
  have hrecovers := observation_recovers hopen filed (q := textsQuery) (by decide +kernel) hobserve
  refine ⟨?_, ?_⟩
  · obtain ⟨hsnapshots, hfetch⟩ :
        watched.snapshots memos 0 (unreadCalls ++ [retext 6 (.text "b")]) = [["a"]] ∧
        (watched.run memos (unreadCalls ++ [retext 6 (.text "b")])).store.fetch memos ()
          (poll 7).moment texts readText = .ok ["b"] := by decide +kernel
    obtain ⟨last, hlast, hitem⟩ := (hrecovers _ (poll 7)).1 2 rfl due_memos
    rw [hsnapshots] at hlast
    obtain rfl : ["a"] = last := Option.some.inj hlast
    rw [hfetch, if_neg (by decide)] at hitem
    exact hitem
  · obtain ⟨hpending, hitems, hfetch⟩ :
        ((watched.run memos (unreadCalls ++ [retext 6 (.text "a")])).perform memos
          (poll 7)).1 = .delivery .pending ∧
        watched.items memos 0 (unreadCalls ++ [retext 6 (.text "a")] ++ [poll 7]) =
          [.ok ["a"], .error unreadText] ∧
        (watched.run memos
          (unreadCalls ++ [retext 6 (.text "a")] ++ [poll 7])).store.fetch memos () (.ofInt 8) texts
            readText = .ok ["a"] := by decide +kernel
    obtain ⟨item, last, hitem, hlast, hstands⟩ := (hrecovers _ (poll 7)).2 (by decide) (by decide)
      (serves_textsQuery hopen (run_concat filed) (by decide +kernel)) rfl hpending
    rw [snapshots_eq_filterMap, hitems] at hlast
    obtain rfl : ["a"] = last := Option.some.inj hlast
    refine (hstands.resolve_left fun hstays => ?_).2
    rw [hitems] at hitem
    obtain rfl : .error unreadText = item := Option.some.inj hitem
    have hagree := hstays (.ofInt 8)
    rw [hfetch] at hagree
    cases hagree

/-- **The failure stands.**  Once the text is back, a fetch gives it, but the observation has
nothing to say, and what it said last is that the text cannot be read. -/
theorem silent_after_failure :
    ((watched.run memos (unreadCalls ++ [retext 6 (.text "a")])).perform memos (poll 7)).1 =
        .delivery .pending ∧
      watched.items memos 0 (unreadCalls ++ [retext 6 (.text "a")] ++ [poll 7]) =
        [.ok ["a"], .error unreadText] ∧
      (watched.run memos (unreadCalls ++ [retext 6 (.text "a")] ++ [poll 7])).store.fetch memos ()
        (.ofInt 8) texts readText = .ok ["a"] := by
  decide +kernel

end Session

end LiveQuery
