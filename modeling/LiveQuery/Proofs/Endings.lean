import LiveQuery.Proofs.Recovery
import LiveQuery.Proofs.Subscriptions

/-!
# The end of observations

When the last handle to a store is dropped, the inboxes of its observations stay as they are, and an
observation learns of it in two places only: when it looks for actions and its inbox is empty, and
when it is about to fetch.  So what waits in an inbox is still taken, and actions that affect the
query still make a fetch due.  The fetch is not made any more, though, and as nothing is executed
on a closed store, an inbox that was emptied stays empty.

For the steps of one observation this is `Observation.Finishes`: what a step brings on a closed
store, with the steps that are left until the end is reported (`Observation.stepsToEnd`).  Calls to
others leave both alone (`Session.Ends.perform`), so the end is near after a few polls whatever is
called between them.  The other half is an invariant of all sessions: no observation has ended
while the store is open (`Session.Lively`).

## Main definitions

* `Call.polls`: calls that let an observation take a step.
* `Observation.stepsToEnd`, `Observation.Finishes`: steps on a closed store.
* `Session.Lively`: an open store has no observation that has ended.
* `Session.Ends`: an observation of a closed store with the steps until its end.

## Main results

* `Session.Lively.perform`, `Session.Lively.run`: no observation ends before its store.
* `Session.Tells.items_of_closed`: what an observation of a closed store delivers.
* `Session.Ends.perform`, `Session.Ends.run`: polls bring the end nearer.
* `Session.observation_ends`: observations end with the store.
-/

namespace LiveQuery

/-! ### Polls -/

/-- The call lets the observation in a place take a step. -/
def Call.polls {ι α : Type} (i : Nat) : Call ι α → Bool
  | advance j count => j = i && 0 < count
  | _ => false

theorem Call.exists_of_polls {ι α : Type} {c : Call ι α} {i : Nat} (h : c.polls i = true) :
    ∃ count, c = .advance i (count + 1) := by
  cases c with
  | advance j count =>
    obtain ⟨rfl, hcount⟩ : j = i ∧ 0 < count := by simpa [polls] using h
    obtain ⟨count, rfl⟩ := Nat.exists_eq_succ_of_ne_zero hcount.ne'
    exact ⟨count, rfl⟩
  | _ => cases h

/-- A call to an observation lets it take some steps unless it drops it. -/
theorem Call.exists_of_place? {ι α : Type} {c : Call ι α} {i : Nat} (h : c.place? = some i)
    (hdrop : c ≠ .drop i) : ∃ count, c = .advance i count := by
  cases c with
  | advance j count =>
    obtain rfl := Option.some.inj h
    exact ⟨count, rfl⟩
  | drop j =>
    obtain rfl := Option.some.inj h
    exact absurd rfl hdrop
  | _ => cases h

/-! ### Steps of an observation -/

namespace Observation

variable {α : Type} {o o' : Observation α} {s s' : Store} {d : Delivery α}

/-- How many steps there are at most before the one that reports the end of a closed store: the
first results have to be delivered, and what waits in the inbox has to be taken. -/
def stepsToEnd (o : Observation α) (s : Store) : Nat :=
  match o.phase with
  | .fresh => 2
  | .waiting => if s.log.inbox o.subscriber = [] then 0 else 1
  | .stale => 0
  | .ended => 0

theorem stepsToEnd_le (o : Observation α) (s : Store) : o.stepsToEnd s ≤ 2 := by
  unfold stepsToEnd
  split
  · omega
  · split <;> omega
  · omega
  · omega

/-- Of the store only the inbox of the observation matters. -/
theorem stepsToEnd_congr (h : s'.log.inbox o.subscriber = s.log.inbox o.subscriber) :
    o.stepsToEnd s' = o.stepsToEnd s := by
  rw [stepsToEnd, stepsToEnd, h]

/-- What a step brings on a closed store, and how it leaves observation and store. -/
inductive Finishes (o : Observation α) (s : Store) :
    Delivery α → Observation α → Store → Prop
  /-- The first results are delivered even now. -/
  | first (hphase : o.phase = .fresh) :
      Finishes o s (.results o.last) { o with phase := .waiting } s
  /-- What waits is taken. -/
  | taken {phase : Phase} (hleft : o.stepsToEnd s = 1)
      (hphase : phase = .waiting ∨ phase = .stale) :
      Finishes o s .silent { o with phase := phase }
        { s with log := (s.log.drain o.subscriber).2 }
  /-- The end is reported. -/
  | ended (hphase : o.phase ≠ .fresh) (hleft : o.stepsToEnd s = 0) :
      Finishes o s .ended { o with phase := .ended } s

/-- Of the results, only the first ones are delivered, and failures are not. -/
theorem Finishes.item? (h : Finishes o s d o' s') :
    d.item? = none ∨ o.phase = .fresh ∧ d.item? = some (.ok o.last) := by
  cases h with
  | first hphase => exact Or.inr ⟨hphase, rfl⟩
  | taken hleft hphase => exact Or.inl rfl
  | ended hphase hleft => exact Or.inl rfl

/-- The first results are over after a step. -/
theorem Finishes.phase_ne (h : Finishes o s d o' s') : o'.phase ≠ .fresh := by
  cases h with
  | first hphase => exact nofun
  | taken hleft hphase => rcases hphase with rfl | rfl <;> exact nofun
  | ended hphase hleft => exact nofun

/-- A step reports the end, or it brings it nearer. -/
theorem Finishes.stepsToEnd (h : Finishes o s d o' s') :
    d = .ended ∧ o'.stepsToEnd s' = 0 ∨ o'.stepsToEnd s' < o.stepsToEnd s := by
  cases h with
  | first hphase =>
    refine Or.inr ?_
    simp only [Observation.stepsToEnd, hphase]
    split <;> omega
  | taken hleft hphase =>
    -- the inbox is empty now, and a fetch that is due finds the store closed
    refine Or.inr ?_
    rw [hleft]
    rcases hphase with rfl | rfl <;> simp [Observation.stepsToEnd, Log.inbox_drain]
  | ended hphase hleft => exact Or.inl ⟨rfl, rfl⟩

variable [DecidableEq α] {moment : Binary64}

/-- **Every step on a closed store** is one of these. -/
theorem step_finishes (hclosed : s.isOpen = false) (moment : Binary64) :
    Finishes o s (o.step moment s).1 (o.step moment s).2.1 (o.step moment s).2.2 := by
  unfold step
  split
  next hphase => exact .first hphase
  next hphase =>
    unfold takeActions
    split
    next hinbox =>
      rw [hclosed]
      refine .ended (by rw [hphase]; exact nofun) ?_
      simp only [Observation.stepsToEnd, hphase, hinbox, if_pos]
    next hinbox =>
      refine .taken ?_ ?_
      · simp only [Observation.stepsToEnd, hphase, if_neg hinbox]
      · split
        · exact Or.inr rfl
        · exact Or.inl rfl
  next hphase =>
    unfold refetch
    rw [hclosed]
    refine .ended (by rw [hphase]; exact nofun) ?_
    simp only [Observation.stepsToEnd, hphase]
  next hphase =>
    have hsame : o = { o with phase := .ended } := by rw [← hphase]
    conv => arg 4; rw [hsame]
    refine .ended (by rw [hphase]; exact nofun) ?_
    simp only [Observation.stepsToEnd, hphase]

theorem isOpen_step (moment : Binary64) (o : Observation α) (s : Store) :
    (o.step moment s).2.2.isOpen = s.isOpen := (o.step_sameBut moment s).2.2.isOpen

theorem isOpen_steps (moment : Binary64) (count : Nat) (o : Observation α) (s : Store) :
    (o.steps moment count s).2.2.isOpen = s.isOpen := (o.steps_sameBut moment count s).2.2.isOpen

/-- Steps on a closed store deliver the first results, if they were not delivered yet, and nothing
else. -/
theorem steps_item?_of_closed (hclosed : s.isOpen = false) (moment : Binary64) (count : Nat) :
    (o.steps moment count s).1.item? = none ∨
      o.phase = .fresh ∧ (o.steps moment count s).1.item? = some (.ok o.last) := by
  induction count generalizing o s with
  | zero => exact Or.inl rfl
  | succ count ih =>
    have hstep := o.step_finishes hclosed moment
    by_cases hsilent : (o.step moment s).1 = .silent
    · rw [steps_succ_of_silent count hsilent]
      refine Or.inl ((ih ?_).resolve_right fun h => hstep.phase_ne h.1)
      exact (isOpen_step moment o s).trans hclosed
    · rw [steps_succ_of_ne count hsilent]
      exact hstep.item?

/-- Steps on a closed store do not put off the end. -/
theorem stepsToEnd_steps_le (hclosed : s.isOpen = false) (moment : Binary64) (count : Nat) :
    (o.steps moment count s).2.1.stepsToEnd (o.steps moment count s).2.2 ≤ o.stepsToEnd s := by
  induction count generalizing o s with
  | zero => exact Nat.le_refl _
  | succ count ih =>
    have hstep : (o.step moment s).2.1.stepsToEnd (o.step moment s).2.2 ≤ o.stepsToEnd s := by
      rcases (o.step_finishes hclosed moment).stepsToEnd with ⟨-, hzero⟩ | hless
      · rw [hzero]
        exact Nat.zero_le _
      · exact hless.le
    by_cases hsilent : (o.step moment s).1 = .silent
    · rw [steps_succ_of_silent count hsilent]
      exact (ih ((isOpen_step moment o s).trans hclosed)).trans hstep
    · rw [steps_succ_of_ne count hsilent]
      exact hstep

/-- **Steps on a closed store report the end, or they bring it nearer.** -/
theorem steps_of_closed (hclosed : s.isOpen = false) (moment : Binary64) (count : Nat) :
    (o.steps moment (count + 1) s).1 = .ended ∧
        (o.steps moment (count + 1) s).2.1.stepsToEnd (o.steps moment (count + 1) s).2.2 = 0 ∨
      (o.steps moment (count + 1) s).2.1.stepsToEnd (o.steps moment (count + 1) s).2.2 <
        o.stepsToEnd s := by
  have hstep := (o.step_finishes hclosed moment).stepsToEnd
  by_cases hsilent : (o.step moment s).1 = .silent
  · rw [steps_succ_of_silent count hsilent]
    refine Or.inr (Nat.lt_of_le_of_lt
      (stepsToEnd_steps_le ((isOpen_step moment o s).trans hclosed) moment count)
      (hstep.resolve_left fun h => ?_))
    rw [hsilent] at h
    cases h.1
  · rw [steps_succ_of_ne count hsilent]
    exact hstep

/-- A step on an open store does not end the observation. -/
theorem step_of_open (hopen : s.isOpen = true) (hphase : o.phase ≠ .ended) (moment : Binary64) :
    (o.step moment s).1 ≠ .ended ∧ (o.step moment s).2.1.phase ≠ .ended := by
  unfold step
  split
  next => exact ⟨nofun, nofun⟩
  next =>
    unfold takeActions
    split
    · rw [if_pos hopen]
      exact ⟨nofun, hphase⟩
    · refine ⟨nofun, ?_⟩
      dsimp only
      split <;> exact nofun
  next =>
    unfold refetch
    rw [if_pos hopen]
    split
    · split <;> exact ⟨nofun, nofun⟩
    · exact ⟨nofun, nofun⟩
  next hended => exact absurd hended hphase

/-- So do any number of steps. -/
theorem steps_of_open (hopen : s.isOpen = true) (hphase : o.phase ≠ .ended) (moment : Binary64)
    (count : Nat) :
    (o.steps moment count s).1 ≠ .ended ∧ (o.steps moment count s).2.1.phase ≠ .ended := by
  induction count generalizing o s with
  | zero => exact ⟨nofun, hphase⟩
  | succ count ih =>
    have hstep := step_of_open hopen hphase moment
    by_cases hsilent : (o.step moment s).1 = .silent
    · rw [steps_succ_of_silent count hsilent]
      exact ih ((isOpen_step moment o s).trans hopen) hstep.2
    · rw [steps_succ_of_ne count hsilent]
      exact hstep

end Observation

/-! ### Sessions -/

namespace Session

variable {ι α : Type}

/-- No observation has ended while the store is open. -/
def Lively (x : Session α) : Prop :=
  x.store.isOpen = true → ∀ (i : Nat) (o : Observation α),
    x.observations[i]? = some (some o) → o.phase ≠ .ended

/-- The store is closed, and the observation in a place has at most so many steps to take before the
one that reports the end. -/
structure Ends (i n : Nat) (x : Session α) : Prop where
  closed : x.store.isOpen = false
  held : ∃ o, x.observations[i]? = some (some o) ∧ o.stepsToEnd x.store ≤ n

variable [DecidableEq α] {m : Model ι} {x : Session α} {e : Event ι α} {i n : Nat} {q : Query}
  {decode : Row → Except DecodeError α} {first : List α} {told : List (List α)}

/-- What a call does that lets an observation take some steps. -/
theorem perform_advance {o : Observation α} {count : Nat} (hcall : e.call = .advance i count)
    (ho : x.observations[i]? = some (some o)) :
    x.perform m e = (.delivery (o.steps e.moment count x.store).1,
      ⟨(o.steps e.moment count x.store).2.2,
        x.observations.set i (some (o.steps e.moment count x.store).2.1)⟩) := by
  simp only [Session.perform, hcall, ho]

theorem isOpen_close (hclose : e.call = .close) : (x.perform m e).2.store.isOpen = false := by
  simp only [Session.perform, hclose]
  rfl

/-- Nothing opens a closed store. -/
theorem isOpen_perform_of_closed (hclosed : x.store.isOpen = false) :
    (x.perform m e).2.store.isOpen = false := by
  have hmove := move_perform m x e
  generalize (x.perform m e).1 = out, (x.perform m e).2 = x' at hmove
  have hshut : x.store.isOpen ≠ true := by
    rw [hclosed]
    exact nofun
  cases hmove with
  | applied hopen haction hexecute => exact absurd hopen hshut
  | observed hcall hopen hcompile hrows => exact absurd hopen hshut
  | unobserved hcall hopen => exact absurd hopen hshut
  | cleaned count hcall hopen => exact absurd hopen hshut
  | advanced hcall ho => exact (Observation.isOpen_steps _ _ _ _).trans hclosed
  | closed hcall => rfl
  | still hexecuted hquiet hstarted => exact hclosed
  | dropped hcall ho => exact hclosed

/-! ### Open stores -/

omit [DecidableEq α] in
theorem lively_start (s : Store) : (start s : Session α).Lively := fun _ => nofun

/-- **No call ends an observation of an open store.** -/
theorem Lively.perform (h : x.Lively) : (x.perform m e).2.Lively := by
  have hmove := move_perform m x e
  generalize (x.perform m e).1 = out, (x.perform m e).2 = x' at hmove
  intro hopen' i o ho
  cases hmove with
  | applied hopen haction hexecute => exact h hopen i o ho
  | still hexecuted hquiet hstarted => exact h hopen' i o ho
  | observed hcall hopen hcompile hrows =>
    rcases getElem?_concat ho with ho | ⟨-, ho⟩
    · exact h hopen i o ho
    · obtain rfl := Option.some.inj ho
      exact nofun
  | unobserved hcall hopen => exact h hopen i o ho
  | @advanced j count o' hcall ho' =>
    have hopen : x.store.isOpen = true := (Observation.isOpen_steps _ _ _ _).symm.trans hopen'
    rcases getElem?_set_some ho with ⟨-, rfl⟩ | ⟨-, ho⟩
    · exact (Observation.steps_of_open hopen (h hopen j o' ho') e.moment count).2
    · exact h hopen i o ho
  | dropped hcall ho' => exact h hopen' i o (getElem?_set_none ho).2
  | cleaned count hcall hopen => exact h hopen i o ho
  | closed hcall => cases hopen'

theorem Lively.run (h : x.Lively) (es : List (Event ι α)) : (x.run m es).Lively := by
  induction es generalizing x with
  | nil => exact h
  | cons e es ih => exact ih h.perform

/-- No observation reports the end while the store is open. -/
theorem Lively.outcome_ne (h : x.Lively) (hopen : x.store.isOpen = true) :
    (x.perform m e).1 ≠ .delivery .ended := by
  have hmove := move_perform m x e
  generalize (x.perform m e).1 = out, (x.perform m e).2 = x' at hmove
  cases hmove with
  | still hexecuted hquiet hstarted => exact hquiet _
  | @advanced j count o hcall ho =>
    intro hended
    exact (Observation.steps_of_open hopen (h hopen j o ho) e.moment count).1
      (Outcome.delivery.inj hended)
  | _ => exact nofun

/-! ### What is delivered after the close -/

/-- A call to an observation of a closed store delivers its first results, if nothing was delivered
yet, or nothing. -/
theorem Tells.item?_of_closed (h : x.Tells i q decode first told)
    (hclosed : x.store.isOpen = false) :
    e.item? i (x.perform m e).1 = none ∨
      told = [] ∧ e.item? i (x.perform m e).1 = some (.ok first) := by
  by_cases hplace : e.call.place? = some i
  · rcases (move_perform m x e).of_place? hplace with
      ⟨-, hquiet⟩ | ⟨o, count, ho, hout, -⟩ | ⟨o, -, hout, -⟩
    · exact Or.inl (Event.item?_of_quiet hquiet)
    · have hitem : e.item? i (x.perform m e).1 = (o.steps e.moment count x.store).1.item? := by
        rw [hout]
        exact if_pos hplace
      rw [hitem]
      refine (Observation.steps_item?_of_closed hclosed e.moment count).imp_right ?_
      rintro ⟨hphase, hfirst⟩
      obtain ⟨hnil, rfl⟩ := (h.fits o ho).2.fresh hphase
      exact ⟨hnil, hfirst⟩
    · rw [hout]
      exact Or.inl (Event.item?_of_quiet nofun)
  · exact Or.inl (Event.item?_of_ne hplace _)

/-- **What is delivered after the close**: nothing, or the first results once, if nothing was
delivered before. -/
theorem Tells.items_of_closed (h : x.Tells i q decode first told)
    (hclosed : x.store.isOpen = false) (es : List (Event ι α)) :
    x.items m i es = [] ∨ told = [] ∧ x.items m i es = [.ok first] := by
  induction es generalizing x told with
  | nil => exact Or.inl rfl
  | cons e es ih =>
    have hrest := ih (h.perform (m := m) (e := e)) (isOpen_perform_of_closed hclosed)
    rw [Event.toList_delivered?] at hrest
    rw [items]
    rcases h.item?_of_closed (m := m) (e := e) hclosed with hnone | ⟨hnil, hfirst⟩
    · rw [hnone] at hrest ⊢
      rwa [Option.toList_none, List.filterMap_nil, List.append_nil] at hrest
    · rw [hfirst, hnil] at hrest
      refine Or.inr ⟨hnil, ?_⟩
      rw [hfirst, hrest.resolve_right fun h => by cases h.1]
      rfl

/-! ### The end -/

/-- Calls to others do not matter to an observation of a closed store. -/
theorem Ends.perform_of_ne (h : x.Ends i n) (hlinked : x.Linked)
    (hplace : e.call.place? ≠ some i) : (x.perform m e).2.Ends i n := by
  have hmove := move_perform m x e
  obtain ⟨o, ho, hleft⟩ := h.held
  refine ⟨isOpen_perform_of_closed h.closed, o, ?_, ?_⟩
  · rw [hmove.observation_of_ne (List.getElem?_eq_some_iff.mp ho).1 hplace]
    exact ho
  · -- nothing is executed, so nothing is sent
    have hexecuted : e.executed? m (x.perform m e).1 = none := by
      rcases hmove.database with ⟨a, effect, -, hopen, -⟩ | ⟨hnone, -⟩
      · rw [h.closed] at hopen
        cases hopen
      · exact hnone
    obtain ⟨queue, hqueue⟩ := Option.isSome_iff_exists.mp (hlinked.held i o ho)
    have hinbox := hmove.inbox hlinked hqueue fun j o' hj ho' heq =>
      hplace (hlinked.apart i j o o' ho ho' heq ▸ hj)
    have hsame : (x.perform m e).2.store.log.inbox o.subscriber =
        x.store.log.inbox o.subscriber := by
      rw [Log.inbox, Log.inbox, hinbox, hqueue, hexecuted]
      exact List.append_nil queue
    rw [Observation.stepsToEnd_congr hsame]
    exact hleft

/-- A call that lets an observation of a closed store take steps leaves it in its place. -/
theorem Ends.advance (h : x.Ends i n) {n' count : Nat} (hcall : e.call = .advance i count)
    (hleft : ∀ o : Observation α, o.stepsToEnd x.store ≤ n →
      (o.steps e.moment count x.store).2.1.stepsToEnd (o.steps e.moment count x.store).2.2 ≤ n') :
    (x.perform m e).2.Ends i n' := by
  obtain ⟨hclosed, o, ho, hn⟩ := h
  refine ⟨isOpen_perform_of_closed hclosed, (o.steps e.moment count x.store).2.1, ?_, ?_⟩ <;>
    rw [perform_advance hcall ho]
  · exact List.getElem?_set_self (List.getElem?_eq_some_iff.mp ho).1
  · exact hleft o hn

/-- A poll of an observation of a closed store brings the end nearer. -/
theorem Ends.poll (h : x.Ends i n) (hpolls : e.call.polls i = true) :
    (x.perform m e).2.Ends i (n - 1) := by
  obtain ⟨count, hcall⟩ := Call.exists_of_polls hpolls
  refine h.advance hcall fun o hn => ?_
  rcases o.steps_of_closed h.closed e.moment count with ⟨-, hzero⟩ | hless
  · rw [hzero]
    exact Nat.zero_le _
  · omega

/-- When no steps are left, a poll reports the end. -/
theorem Ends.reports (h : x.Ends i 0) (hpolls : e.call.polls i = true) :
    (x.perform m e).1 = .delivery .ended := by
  obtain ⟨count, hcall⟩ := Call.exists_of_polls hpolls
  obtain ⟨hclosed, o, ho, hleft⟩ := h
  rw [perform_advance hcall ho]
  rcases o.steps_of_closed hclosed e.moment count with ⟨hended, -⟩ | hless
  · rw [hended]
  · omega

/-- **Every call leaves an observation of a closed store as near to its end, and polls bring it
nearer.** -/
theorem Ends.perform (h : x.Ends i n) (hlinked : x.Linked) (hdrop : e.call ≠ .drop i) :
    (x.perform m e).2.Ends i (n - if e.call.polls i then 1 else 0) := by
  cases hpolls : e.call.polls i with
  | true => exact h.poll hpolls
  | false =>
    by_cases hplace : e.call.place? = some i
    · obtain ⟨count, hcall⟩ := Call.exists_of_place? hplace hdrop
      exact h.advance hcall fun o hn =>
        (Observation.stepsToEnd_steps_le h.closed e.moment count).trans hn
    · exact h.perform_of_ne hlinked hplace

/-- After any calls the end is as much nearer as there were polls. -/
theorem Ends.run (h : x.Ends i n) (hlinked : x.Linked) {es : List (Event ι α)}
    (hdrop : ∀ e ∈ es, e.call ≠ .drop i) :
    (x.run m es).Ends i (n - es.countP fun e => e.call.polls i) := by
  induction es generalizing x n with
  | nil => exact h
  | cons e es ih =>
    obtain ⟨he, hes⟩ := List.forall_mem_cons.mp hdrop
    have hrest := ih (h.perform (m := m) hlinked he) (linked_perform m hlinked e) hes
    rw [List.countP_cons, Nat.add_comm, Nat.sub_add_eq]
    exact hrest

/-- An observation that is not dropped keeps its place. -/
theorem held_run {o : Observation α} (ho : x.observations[i]? = some (some o))
    {es : List (Event ι α)} (hdrop : ∀ e ∈ es, e.call ≠ .drop i) :
    ∃ o', (x.run m es).observations[i]? = some (some o') := by
  induction es generalizing x o with
  | nil => exact ⟨o, ho⟩
  | cons e es ih =>
    obtain ⟨he, hes⟩ := List.forall_mem_cons.mp hdrop
    have hi := (List.getElem?_eq_some_iff.mp ho).1
    by_cases hplace : e.call.place? = some i
    · obtain ⟨count, hcall⟩ := Call.exists_of_place? hplace he
      refine ih (o := (o.steps e.moment count x.store).2.1) ?_ hes
      rw [perform_advance hcall ho]
      exact List.getElem?_set_self hi
    · refine ih (o := o) ?_ hes
      rw [(move_perform m x e).observation_of_ne hi hplace]
      exact ho

/-- When the store is closed, the end is not far. -/
theorem ends_close {o : Observation α} (ho : x.observations[i]? = some (some o))
    (hclose : e.call = .close) : (x.perform m e).2.Ends i 2 := by
  refine ⟨isOpen_close hclose, o, ?_, o.stepsToEnd_le _⟩
  simp only [Session.perform, hclose]
  exact ho

/-! ### Observations end with the store -/

/-- Observations are started on open stores, of requests that compile. -/
theorem of_observing {root : ι} {request : Request} {moment : Binary64} {x' : Session α}
    (hobserve : x.perform m ⟨moment, .observe root request decode⟩ = (.observing i, x')) :
    x'.store.isOpen = true ∧ ∃ q, request.compile m root = .ok q := by
  have hmove := move_perform m x ⟨moment, .observe root request decode⟩
  rw [hobserve] at hmove
  cases hmove with
  | still hexecuted hquiet hstarted => exact absurd rfl (hstarted i)
  | observed hcall hopen hcompile hrows =>
    obtain ⟨rfl, rfl, rfl⟩ := Call.observe.inj hcall
    exact ⟨hopen, _, hcompile⟩

/-- **Observations end with the store.**  Let an observation be started on an opened store, after
any calls, and let the last handle be dropped after any further calls, whatever waits in the inbox
of the observation by then.  Before that no poll reports an end.  After that the observation
delivers nothing, neither results nor failures, but for its first results if it has delivered none;
and a poll reports its end as soon as there were two others, if the observation was not dropped. -/
theorem observation_ends {entities : List ι} {db opened : Database} {s : Store}
    (hopen : Store.open? m entities db = (.ok s, opened)) (before : List (Event ι α))
    {root : ι} {request : Request} {moment : Binary64}
    (hobserve : ((start s).run m before).perform m ⟨moment, .observe root request decode⟩ =
      (.observing i, x)) {during : List (Event ι α)} (hduring : ∀ e ∈ during, e.call ≠ .close)
    {closing : Event ι α} (hclosing : closing.call = .close) (after : List (Event ι α))
    (e : Event ι α) :
    ((x.run m during).perform m e).1 ≠ .delivery .ended ∧
      (∃ first, ((start s).run m before).store.fetch m root moment request decode = .ok first ∧
        ((x.run m (during ++ [closing])).items m i after = [] ∨
          x.snapshots m i during = [] ∧
            (x.run m (during ++ [closing])).items m i after = [.ok first])) ∧
      ((∀ e' ∈ during ++ after, e'.call ≠ .drop i) →
        2 ≤ after.countP (fun e' => e'.call.polls i) → e.call.polls i = true →
          ((x.run m (during ++ [closing] ++ after)).perform m e).1 = .delivery .ended) := by
  obtain rfl := open?_eq_ok hopen
  obtain ⟨hopened, q, hcompile⟩ := of_observing hobserve
  have hrun : x = (start ⟨opened, ∅⟩).run m
      (before ++ [⟨moment, .observe root request decode⟩]) := by
    rw [run_concat, hobserve]
  have hlinked : x.Linked := hrun ▸ linked_run m (linked_start Log.wired_empty) _
  have hlively : x.Lively := hrun ▸ (lively_start ⟨opened, ∅⟩).run _
  refine ⟨(hlively.run during).outcome_ne (isOpen_run hopened hduring), ?_,
    fun hdrop hpolled hpolls => ?_⟩
  · obtain ⟨first, htells⟩ := tells_observe hcompile hobserve
    obtain ⟨first', subscriber, hfirst, -, hself⟩ := observing_eq hcompile hobserve
    obtain rfl : first' = first := ((htells.fits _ hself).2.fresh rfl).2
    refine ⟨first', ?_, ?_⟩
    · rw [Store.fetch_eq hcompile]
      exact hfirst
    · have hclosed : (x.run m (during ++ [closing])).store.isOpen = false := by
        rw [run_concat]
        exact isOpen_close hclosing
      have htold := htells.run (m := m) (during ++ [closing])
      rw [snapshots_concat, Event.delivered?_of_ne (by rw [hclosing]; exact nofun),
        Option.toList_none, List.append_nil] at htold
      exact htold.items_of_closed hclosed after
  · rw [List.forall_mem_append] at hdrop
    obtain ⟨first, subscriber, -, -, hself⟩ := observing_eq hcompile hobserve
    obtain ⟨o, ho⟩ := held_run (m := m) hself hdrop.1
    have hends : (x.run m (during ++ [closing])).Ends i 2 := by
      rw [run_concat]
      exact ends_close ho hclosing
    have hleft := hends.run (m := m) (linked_run m hlinked _) hdrop.2
    rw [Nat.sub_eq_zero_of_le hpolled, ← run_append] at hleft
    exact hleft.reports hpolls

/-- The texts of the notes are observed after one was written. -/
def observed : Session Row :=
  (((start notebook).run notes written).perform notes ⟨.ofInt 2, .observe () texts .ok⟩).2

/-- The text is changed, and then a number that was not asked for, while nobody polls. -/
def unseenCalls : List (Event Unit Row) := [assign 3 "text" (.text "b"), assign 4 "id" (.integer 2)]

/-- Drops the last handle to the store. -/
def shut : Event Unit Row := ⟨.ofInt 5, .close⟩

/-- Lets the observation take a single step. -/
def stepOnce (moment : Int) : Event Unit Row := ⟨.ofInt moment, .advance 0 1⟩

/-- The first text is delivered although the store is closed.  The other one is not: the next step
takes the changes from the inbox, and the one after it reports the end. -/
theorem observation_ends_texts :
    ((observed.run notes unseenCalls).store.log.inbox 0).length = 2 ∧
      (observed.run notes (unseenCalls ++ [shut])).items notes 0 [stepOnce 6, stepOnce 7] =
        [.ok [.ofList [("text", .text "a")]]] ∧
      ((observed.run notes (unseenCalls ++ [shut] ++ [stepOnce 6, stepOnce 7])).perform notes
        (stepOnce 8)).1 = .delivery .ended := by
  have hopen : Store.open? notes [()] .empty = (.ok notebook, notebook.database) := by
    decide +kernel
  have hobserving : (((start notebook).run notes written).perform notes
      ⟨.ofInt 2, .observe () texts .ok⟩).1 = .observing 0 := by decide +kernel
  have hunseen : ∀ e ∈ unseenCalls, e.call ≠ .close := by simp [unseenCalls, assign]
  have hkept : ∀ e ∈ unseenCalls ++ [stepOnce 6, stepOnce 7], e.call ≠ .drop 0 := by
    simp [unseenCalls, assign, stepOnce]
  have hclosing : shut.call = .close := rfl
  obtain ⟨-, -, hended⟩ := observation_ends hopen written (Prod.ext hobserving rfl) hunseen hclosing
    [stepOnce 6, stepOnce 7] (stepOnce 8)
  exact ⟨by decide +kernel, by decide +kernel, hended hkept (by decide) rfl⟩

end Session

end LiveQuery
