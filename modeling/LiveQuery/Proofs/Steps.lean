import LiveQuery.Proofs.Results
import LiveQuery.Proofs.Session

/-!
# Steps of an observation

A poll of an observation is a number of small steps.  Here is what any number of them bring, and
that they keep the last results current.

The invariant is `Observation.Current`: unless an action that affects the query waits in the inbox,
the last results are what the query gives now.  Taking actions from the inbox makes a fetch due if
one of them affects the query, and if none does, the last results were current already.  A fetch
makes them current whatever happened since it became due.

## Main definitions

* `Observation.Brings`: what steps bring, and how they leave the observation.
* `Observation.Current`: the invariant.
* `Observation.Told`: how the state of an observation fits what it has delivered.
* `Observation.stepsLeft`: the steps until there is something to say.

## Main results

* `Observation.steps_brings`: what steps bring.
* `Observation.steps_current`: steps keep the last results current.
* `Observation.steps_pending`: nothing is pending before the inbox is empty.
* `Observation.poll_ne_silent`: four steps are enough to say something.
-/

namespace LiveQuery

/-! ### What observations bring -/

/-- The results in a delivery, if there are any. -/
def Delivery.rows? {α : Type} : Delivery α → Option (List α)
  | results rows => some rows
  | _ => none

/-- What may be delivered after certain results: the first results if there are none, and otherwise
results other than the last ones, fetched from the database as it is. -/
def Database.Continues {α : Type} (db : Database) (moment : Binary64) (q : Query)
    (decode : Row → Except DecodeError α) (first : List α) (told : List (List α))
    (rows : List α) : Prop :=
  told = [] ∧ rows = first ∨
    ∃ last, told.getLast? = some last ∧ rows ≠ last ∧ Store.results db moment q decode = .ok rows

namespace Observation

variable {α : Type}

/-- What steps of an observation bring, and how they leave it: its first results, or other results
than the last ones, fetched from the database as it is, or none. -/
inductive Brings (moment : Binary64) (db : Database) (o : Observation α) :
    Delivery α → Observation α → Prop
  | first (hphase : o.phase = .fresh) :
      Brings moment db o (.results o.last) { o with phase := .waiting }
  | anew {rows : List α} (hphase : o.phase ≠ .fresh) (hne : rows ≠ o.last)
      (hrows : Store.results db moment o.query o.decode = .ok rows) :
      Brings moment db o (.results rows) { o with last := rows, phase := .waiting }
  | nothing {d : Delivery α} {phase : Phase} (hd : d.rows? = none)
      (hphase : phase = .fresh ↔ o.phase = .fresh) : Brings moment db o d { o with phase := phase }

/-- Unless an action waits that affects the query, the last results are what the query gives. -/
def Current (o : Observation α) (s : Store) : Prop :=
  o.phase = .fresh ∨ o.phase = .waiting →
    (s.log.inbox o.subscriber).any (fun entry => o.query.isAffectedBy entry.action) = false →
    s.database.Gives o.query o.decode o.last

/-- What an observation has delivered fits its state: nothing before its first results, and its last
results in the end. -/
structure Told (first : List α) (told : List (List α)) (o : Observation α) : Prop where
  fresh : o.phase = .fresh → told = [] ∧ o.last = first
  last : o.phase ≠ .fresh → told.getLast? = some o.last

variable {moment : Binary64} {o : Observation α} {s : Store}

/-! ### Steps -/

/-- Silent steps may come before. -/
theorem Brings.trans {db : Database} {o' o'' : Observation α} {d : Delivery α}
    (h : Brings moment db o .silent o') (hphase : o.phase ≠ .fresh)
    (h' : Brings moment db o' d o'') : Brings moment db o d o'' := by
  cases h with
  | @nothing _ phase hd hiff =>
    have hphase' : phase ≠ .fresh := fun hfresh => hphase (hiff.mp hfresh)
    cases h' with
    | first hfresh => exact absurd hfresh hphase'
    | anew _ hne hrows => exact .anew hphase hne hrows
    | nothing hd' hiff' => exact .nothing hd' (hiff'.trans hiff)

/-- What steps bring fits what was delivered before. -/
theorem Brings.told {db : Database} {o' : Observation α} {d : Delivery α} {first : List α}
    {told : List (List α)} (h : Brings moment db o d o') (htold : o.Told first told) :
    o'.Told first (told ++ d.rows?.toList) ∧
      ∀ rows, d.rows? = some rows → db.Continues moment o.query o.decode first told rows := by
  cases h with
  | first hphase =>
    obtain ⟨rfl, hfirst⟩ := htold.fresh hphase
    refine ⟨⟨nofun, fun _ => rfl⟩, fun rows hrows => Or.inl ⟨rfl, ?_⟩⟩
    obtain rfl := Option.some.inj hrows
    exact hfirst
  | anew hphase hne hresults =>
    refine ⟨⟨nofun, fun _ => List.getLast?_concat⟩, fun rows hrows => Or.inr ?_⟩
    obtain rfl := Option.some.inj hrows
    exact ⟨o.last, htold.last hphase, hne, hresults⟩
  | nothing hd hiff =>
    rw [hd]
    refine ⟨⟨fun hphase => ?_, fun hphase => ?_⟩, nofun⟩
    · rw [Option.toList_none, List.append_nil]
      exact htold.fresh (hiff.mp hphase)
    · rw [Option.toList_none, List.append_nil]
      exact htold.last fun hfresh => hphase (hiff.mpr hfresh)

/-- Where no results come, it only matters that the first ones are over. -/
theorem Brings.of_ne {db : Database} {d : Delivery α} {phase : Phase} (hphase : o.phase ≠ .fresh)
    (hd : d.rows? = none) (hne : phase ≠ .fresh) :
    Brings moment db o d { o with phase := phase } :=
  .nothing hd (iff_of_false hne hphase)

theorem takeActions_brings (hphase : o.phase ≠ .fresh) :
    Brings moment s.database o (o.takeActions s).1 (o.takeActions s).2.1 := by
  unfold takeActions
  split
  · split
    · exact .nothing rfl Iff.rfl
    · exact .of_ne hphase rfl nofun
  · refine .of_ne hphase rfl ?_
    split <;> exact nofun

variable [DecidableEq α]

theorem refetch_brings (hphase : o.phase ≠ .fresh) :
    Brings moment s.database o (o.refetch moment s).1 (o.refetch moment s).2.1 := by
  unfold refetch
  split
  · split
    next rows hrows =>
      split
      next => exact .of_ne hphase rfl nofun
      next hne => exact .anew hphase hne hrows
    next => exact .of_ne hphase rfl nofun
  · exact .of_ne hphase rfl nofun

theorem step_brings (moment : Binary64) (o : Observation α) (s : Store) :
    Brings moment s.database o (o.step moment s).1 (o.step moment s).2.1 := by
  unfold step
  split
  next hphase => exact .first hphase
  next hphase => exact takeActions_brings (by rw [hphase]; exact nofun)
  next hphase => exact refetch_brings (by rw [hphase]; exact nofun)
  next => exact .nothing rfl Iff.rfl

/-- A step that brings nothing yet is not the first one. -/
theorem phase_ne_of_step_silent (h : (o.step moment s).1 = .silent) : o.phase ≠ .fresh := by
  intro hphase
  simp [step, hphase] at h

/-- **What steps of an observation bring.** -/
theorem steps_brings (moment : Binary64) (count : Nat) (o : Observation α) (s : Store) :
    Brings moment s.database o (o.steps moment count s).1 (o.steps moment count s).2.1 := by
  induction count generalizing o s with
  | zero => exact .nothing rfl Iff.rfl
  | succ count ih =>
    have hstep := o.step_brings moment s
    by_cases hsilent : (o.step moment s).1 = .silent
    · rw [steps_succ_of_silent count hsilent]
      have hrest := ih (o.step moment s).2.1 (o.step moment s).2.2
      rw [(o.step_sameBut moment s).2.1] at hrest
      rw [hsilent] at hstep
      exact hstep.trans (phase_ne_of_step_silent hsilent) hrest
    · rw [steps_succ_of_ne count hsilent]
      exact hstep

/-- A step keeps the last results current, if its fetch succeeds. -/
theorem step_current (hcurrent : o.Current s)
    (hgives : ∀ rows, Store.results s.database moment o.query o.decode = .ok rows →
      s.database.Gives o.query o.decode rows)
    (hfetch : ∀ error, (o.step moment s).1 ≠ .failed error) :
    (o.step moment s).2.1.Current (o.step moment s).2.2 := by
  unfold step at hfetch ⊢
  cases hphase : o.phase with
  | fresh => exact fun _ hquiet => hcurrent (Or.inl hphase) hquiet
  | ended => exact hcurrent
  | waiting =>
    simp only [takeActions]
    split
    · split
      · exact hcurrent
      · rintro (h | h) <;> cases h
    next entries hentries =>
      intro hnext _
      refine hcurrent (Or.inr hphase) ?_
      -- what was taken from the inbox affects nothing, as no fetch is due
      rw [Bool.eq_false_iff]
      intro haffected
      rw [haffected] at hnext
      rcases hnext with h | h <;> cases h
  | stale =>
    simp only [hphase] at hfetch
    simp only [refetch] at hfetch ⊢
    split at hfetch
    next hopen =>
      rw [if_pos hopen]
      split at hfetch
      next rows hrows =>
        split
        next heq => exact fun _ _ => heq ▸ hgives rows hrows
        next => exact fun _ _ => hgives rows hrows
      next error _ => exact absurd rfl (hfetch error)
    next hclosed =>
      rw [if_neg hclosed]
      rintro (h | h) <;> cases h

/-- So do any number of steps. -/
theorem steps_current {count : Nat} (hcurrent : o.Current s)
    (hgives : ∀ rows, Store.results s.database moment o.query o.decode = .ok rows →
      s.database.Gives o.query o.decode rows)
    (hfetch : ∀ error, (o.steps moment count s).1 ≠ .failed error) :
    (o.steps moment count s).2.1.Current (o.steps moment count s).2.2 := by
  induction count generalizing o s with
  | zero => exact hcurrent
  | succ count ih =>
    by_cases hsilent : (o.step moment s).1 = .silent
    · rw [steps_succ_of_silent count hsilent] at hfetch ⊢
      obtain ⟨hsame, hdb, -⟩ := o.step_sameBut moment s
      have hstep := step_current hcurrent hgives fun error herror => by
        rw [hsilent] at herror
        cases herror
      refine ih hstep (fun rows hrows => ?_) hfetch
      rw [hdb, hsame.query, hsame.decode] at hrows ⊢
      exact hgives rows hrows
    · rw [steps_succ_of_ne count hsilent] at hfetch ⊢
      exact step_current hcurrent hgives hfetch

/-- Nothing is pending before the inbox is empty. -/
theorem step_pending (h : (o.step moment s).1 = .pending) :
    (o.step moment s).2.1.phase = .waiting ∧
      (o.step moment s).2.2.log.inbox (o.step moment s).2.1.subscriber = [] := by
  unfold step at h ⊢
  cases hphase : o.phase with
  | fresh => simp [hphase] at h
  | ended => simp [hphase] at h
  | waiting =>
    simp only [hphase, takeActions] at h ⊢
    split
    next hinbox =>
      rw [hinbox] at h
      split
      next => exact ⟨hphase, hinbox⟩
      next hclosed => simp [hclosed] at h
    next entries hne =>
      split at h
      next hinbox => exact absurd hinbox hne
      next => cases h
  | stale =>
    simp only [hphase, refetch] at h
    split at h
    · split at h
      · split at h <;> cases h
      · cases h
    · cases h

theorem steps_pending {count : Nat} (h : (o.steps moment count s).1 = .pending) :
    (o.steps moment count s).2.1.phase = .waiting ∧
      (o.steps moment count s).2.2.log.inbox (o.steps moment count s).2.1.subscriber = [] := by
  induction count generalizing o s with
  | zero => cases h
  | succ count ih =>
    by_cases hsilent : (o.step moment s).1 = .silent
    · rw [steps_succ_of_silent count hsilent] at h ⊢
      exact ih h
    · rw [steps_succ_of_ne count hsilent] at h ⊢
      exact step_pending h

/-! ### Polls -/

/-- How many steps it takes at most to say something, if no other calls come between. -/
def stepsLeft (o : Observation α) (s : Store) : Nat :=
  match o.phase with
  | .fresh => 1
  | .ended => 1
  | .waiting => if s.log.inbox o.subscriber = [] then 1 else 3
  | .stale => if s.log.inbox o.subscriber = [] then 2 else 4

omit [DecidableEq α] in
theorem stepsLeft_bounds (o : Observation α) (s : Store) :
    0 < o.stepsLeft s ∧ o.stepsLeft s ≤ 4 := by
  unfold stepsLeft
  split
  · omega
  · omega
  · split <;> omega
  · split <;> omega

/-- A step that brings nothing yet leaves less to do. -/
theorem stepsLeft_step (h : (o.step moment s).1 = .silent) :
    (o.step moment s).2.1.stepsLeft (o.step moment s).2.2 < o.stepsLeft s := by
  unfold step at h ⊢
  cases hphase : o.phase with
  | fresh => simp [hphase] at h
  | ended => simp [hphase] at h
  | waiting =>
    simp only [hphase, takeActions] at h ⊢
    split at h
    next => split at h <;> cases h
    next entries hne =>
      have hleft : o.stepsLeft s = 3 := by
        rw [stepsLeft, hphase]
        exact if_neg hne
      rw [hleft]
      -- the inbox is empty now, so at most a fetch is due
      split <;> simp [stepsLeft, Log.inbox_drain]
  | stale =>
    have hleft : o.stepsLeft s = if s.log.inbox o.subscriber = [] then 2 else 4 := by
      rw [stepsLeft, hphase]
    rw [hleft]
    simp only [hphase, refetch] at h ⊢
    split at h
    next hopen =>
      rw [if_pos hopen]
      split at h
      next rows hrows =>
        split at h
        next heq =>
          rw [if_pos heq]
          simp only [stepsLeft]
          split <;> omega
        next => cases h
      next => cases h
    next => cases h

/-- Enough steps say something, if no other calls come between them. -/
theorem steps_ne_silent {count : Nat} (h : o.stepsLeft s ≤ count) :
    (o.steps moment count s).1 ≠ .silent := by
  induction count generalizing o s with
  | zero => exact absurd h (Nat.not_le.mpr (o.stepsLeft_bounds s).1)
  | succ count ih =>
    by_cases hsilent : (o.step moment s).1 = .silent
    · rw [steps_succ_of_silent count hsilent]
      have hless := stepsLeft_step hsilent
      exact ih (by omega)
    · rw [steps_succ_of_ne count hsilent]
      exact hsilent

/-- **Polls say something**, if no other calls come between their steps. -/
theorem poll_ne_silent (moment : Binary64) (o : Observation α) (s : Store) :
    (o.poll moment s).1 ≠ .silent := steps_ne_silent (o.stepsLeft_bounds s).2

end Observation

end LiveQuery
