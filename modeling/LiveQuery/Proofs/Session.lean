import LiveQuery.Proofs.FanOut
import LiveQuery.Store.Observation

/-!
# Sessions

A session is a store with the observations that were started on it.  It moves by calls that come in
any order, each at a moment of its own: changes, fetches and new observations through the handles
of the store, and steps of the observations, between which other calls may come.  When the last
handle is dropped, only the observations are left to be called.

Every call amounts to one of a few moves (`Session.Move`).  An action is executed and appended, or
the database stays as it is and so does the numbering of the log.  What is said about sessions is
therefore shown once for each move.

Observations do not get into each other's way: every observation holds an inbox of its own
(`Session.Linked`), and a step of an observation takes from its own inbox only (`Log.SameBut`).

## Main definitions

* `Call`, `Event`, `Outcome`, `Session.perform`, `Session.run`: calls and what they do.
* `Call.action?`, `Event.executed?`: the action that a call is for, and whether it was executed.
* `Session.Move`: the moves.
* `Session.Linked`: every observation has its own inbox.

## Main results

* `Session.move_perform`: every call is a move.
* `Session.linked_perform`, `Session.linked_run`: observations keep their own inboxes.
* `Observation.steps_sameBut`: steps of an observation leave the rest of the store alone.
-/

namespace LiveQuery

/-! ### Calls -/

/-- A store with the observations that were started on it.  Their results are of one type, which may
be a sum of types. -/
structure Session (α : Type) where
  /-- The store. -/
  store : Store
  /-- The observations, in the order in which they were started.  A dropped one leaves its place. -/
  observations : List (Option (Observation α))

/-- A call to a store or to an observation. -/
inductive Call (ι α : Type) where
  | insert (root : ι) (fresh : String → Uuid) (values : ValueSet)
  | update (root : ι) (predicate : Option Term) (values : ValueSet)
  | delete (root : ι) (predicate : Option Term)
  | fetch (root : ι) (request : Request) (decode : Row → Except DecodeError α)
  | observe (root : ι) (request : Request) (decode : Row → Except DecodeError α)
  /-- Takes up to so many small steps of an observation.  A poll may be spread over some calls. -/
  | advance (i count : Nat)
  | drop (i : Nat)
  | countSubscribers
  /-- Drops the last handle to the store. -/
  | close

/-- A call at a moment. -/
structure Event (ι α : Type) where
  /-- The moment. -/
  moment : Binary64
  /-- The call. -/
  call : Call ι α

/-- What a call gives back. -/
inductive Outcome (α : Type) where
  /-- There is no handle or no such observation. -/
  | refused
  | failed (error : StoreError)
  | effect (effect : Effect)
  | rows (rows : List α)
  /-- The observation in this place was started. -/
  | observing (i : Nat)
  | delivery (delivery : Delivery α)
  | subscribers (count : Nat)
  | done
deriving DecidableEq

namespace Session

variable {ι α : Type}

/-- The session that begins with a store. -/
def start (s : Store) : Session α := ⟨s, []⟩

/-- The database of the store. -/
def database (x : Session α) : Database := x.store.database

/-- Makes a change through a handle, if there is one. -/
def change (x : Session α) (f : Store → Except StoreError Effect × Store) :
    Outcome α × Session α :=
  if x.store.isOpen then
    match f x.store with
    | (.ok effect, s) => (.effect effect, { x with store := s })
    | (.error error, s) => (.failed error, { x with store := s })
  else (.refused, x)

variable [DecidableEq α]

/-- Performs a call at a moment. -/
def perform (m : Model ι) (x : Session α) (e : Event ι α) : Outcome α × Session α :=
  match e.call with
  | .insert root fresh values => x.change fun s => s.insert m root fresh e.moment values
  | .update root predicate values => x.change fun s => s.update m root e.moment predicate values
  | .delete root predicate => x.change fun s => s.delete m root e.moment predicate
  | .fetch root request decode =>
    if x.store.isOpen then
      match x.store.fetch m root e.moment request decode with
      | .ok rows => (.rows rows, x)
      | .error error => (.failed error, x)
    else (.refused, x)
  | .observe root request decode =>
    if x.store.isOpen then
      match x.store.observe m root e.moment request decode with
      | (.ok o, s) => (.observing x.observations.length, ⟨s, x.observations ++ [some o]⟩)
      | (.error error, s) => (.failed error, { x with store := s })
    else (.refused, x)
  | .advance i count =>
    match x.observations[i]? with
    | some (some o) =>
      let (delivery, o, s) := o.steps e.moment count x.store
      (.delivery delivery, ⟨s, x.observations.set i (some o)⟩)
    | _ => (.refused, x)
  | .drop i =>
    match x.observations[i]? with
    | some (some o) => (.done, ⟨x.store.dropObservation o, x.observations.set i none⟩)
    | _ => (.refused, x)
  | .countSubscribers =>
    if x.store.isOpen then
      (.subscribers x.store.subscriberCount.1, { x with store := x.store.subscriberCount.2 })
    else (.refused, x)
  | .close => (.done, { x with store := x.store.close })

/-- The session after some calls. -/
def run (m : Model ι) (x : Session α) : List (Event ι α) → Session α
  | [] => x
  | e :: rest => (x.perform m e).2.run m rest

theorem run_append (m : Model ι) (x : Session α) (es es' : List (Event ι α)) :
    x.run m (es ++ es') = (x.run m es).run m es' := by
  induction es generalizing x with
  | nil => rfl
  | cons e es ih => exact ih _

end Session

/-! ### Executed actions -/

/-- The action that a call executes: that of a change which is complete, compiles, and assigns
something. -/
def Call.action? {ι α : Type} (m : Model ι) : Call ι α → Option Action
  | insert root fresh values =>
    if values.isSufficient (m root) then (values.insertion m root fresh).toOption else none
  | update root predicate values =>
    (values.updating m root predicate).toOption.filter fun a => !a.isIdle
  | delete root predicate => (deletion m root predicate).toOption
  | _ => none

/-- The action that a call has executed, with its moment, going by what the call gives back. -/
def Event.executed? {ι α : Type} (m : Model ι) (e : Event ι α) :
    Outcome α → Option (Binary64 × Action)
  | .effect _ => (e.call.action? m).map fun a => (e.moment, a)
  | _ => none

/-- The observation that a call is made to. -/
def Call.place? {ι α : Type} : Call ι α → Option Nat
  | advance i _ => some i
  | drop i => some i
  | _ => none

/-- Calls to observations execute no action. -/
theorem Call.action?_of_place? {ι α : Type} {m : Model ι} {c : Call ι α} {i : Nat}
    (h : c.place? = some i) : c.action? m = none := by
  cases c with
  | advance j count => rfl
  | drop j => rfl
  | _ => cases h

namespace Session

variable {ι α : Type} [DecidableEq α]

/-! ### Moves -/

/-- What a call may do to a session. -/
inductive Move (m : Model ι) (x : Session α) (e : Event ι α) : Outcome α → Session α → Prop
  /-- An action is executed and appended to the log. -/
  | applied {a : Action} {db : Database} {effect : Effect} (hopen : x.store.isOpen = true)
      (haction : e.call.action? m = some a)
      (hexecute : x.database.execute e.moment a = .ok (db, effect)) :
      Move m x e (.effect effect) { x with store := ⟨db, x.store.log.append a⟩ }
  /-- Nothing happens, as there is no action to execute or it fails. -/
  | still {out : Outcome α} (hexecuted : e.executed? m out = none)
      (hquiet : ∀ d, out ≠ .delivery d) (hstarted : ∀ i, out ≠ .observing i) : Move m x e out x
  /-- An observation is started with its first results. -/
  | observed {root : ι} {request : Request} {decode : Row → Except DecodeError α} {q : Query}
      {rows : List α} (hcall : e.call = .observe root request decode)
      (hopen : x.store.isOpen = true) (hcompile : request.compile m root = .ok q)
      (hrows : Store.results x.database e.moment q decode = .ok rows) :
      Move m x e (.observing x.observations.length)
        ⟨{ x.store with log := x.store.log.subscribe.2 },
          x.observations ++ [some ⟨q, decode, x.store.log.subscribe.1, rows, .fresh⟩]⟩
  /-- An observation is not started, as its first results cannot be taken. -/
  | unobserved {root : ι} {request : Request} {decode : Row → Except DecodeError α}
      {error : StoreError} (hcall : e.call = .observe root request decode)
      (hopen : x.store.isOpen = true) :
      Move m x e (.failed error) { x with
        store := { x.store with log := x.store.log.subscribe.2.dropInbox x.store.log.subscribe.1 } }
  /-- An observation takes some steps. -/
  | advanced {i count : Nat} {o : Observation α} (hcall : e.call = .advance i count)
      (ho : x.observations[i]? = some (some o)) :
      Move m x e (.delivery (o.steps e.moment count x.store).1)
        ⟨(o.steps e.moment count x.store).2.2,
          x.observations.set i (some (o.steps e.moment count x.store).2.1)⟩
  /-- An observation is dropped. -/
  | dropped {i : Nat} {o : Observation α} (hcall : e.call = .drop i)
      (ho : x.observations[i]? = some (some o)) :
      Move m x e .done ⟨x.store.dropObservation o, x.observations.set i none⟩
  /-- The log is cleaned up. -/
  | cleaned (count : Nat) (hcall : e.call = .countSubscribers) (hopen : x.store.isOpen = true) :
      Move m x e (.subscribers count)
        { x with store := { x.store with log := x.store.log.cleanup } }
  /-- The last handle is dropped. -/
  | closed (hcall : e.call = .close) : Move m x e .done { x with store := x.store.close }

/-- Executing an action through a handle is a move. -/
theorem move_change_of_some {m : Model ι} {x : Session α} {e : Event ι α} {a : Action}
    (haction : e.call.action? m = some a) {f : Store → Except StoreError Effect × Store}
    (hf : f x.store = x.store.execute e.moment a) :
    Move m x e (x.change f).1 (x.change f).2 := by
  rw [change]
  split
  next hopen =>
    rw [hf, Store.execute]
    cases hexecute : x.store.database.execute e.moment a with
    | ok result => exact .applied hopen haction hexecute
    | error error => exact .still rfl nofun nofun
  next => exact .still rfl nofun nofun

/-- A change that does not get as far as an action is no move. -/
theorem move_change_of_none {m : Model ι} {x : Session α} {e : Event ι α}
    (haction : e.call.action? m = none) {f : Store → Except StoreError Effect × Store}
    (hf : (f x.store).2 = x.store) : Move m x e (x.change f).1 (x.change f).2 := by
  rw [change]
  split
  · rcases hfx : f x.store with ⟨_ | effect, s⟩
    · obtain rfl : s = x.store := by rw [← hf, hfx]
      exact .still rfl nofun nofun
    · obtain rfl : s = x.store := by rw [← hf, hfx]
      refine .still ?_ nofun nofun
      rw [Event.executed?, haction, Option.map_none]
  · exact .still rfl nofun nofun

/-- **Every call is a move.** -/
theorem move_perform (m : Model ι) (x : Session α) (e : Event ι α) :
    Move m x e (x.perform m e).1 (x.perform m e).2 := by
  obtain ⟨moment, call⟩ := e
  cases call with
  | insert root fresh values =>
    by_cases hsufficient : values.isSufficient (m root) = true
    · cases hcompile : values.insertion m root fresh with
      | ok a =>
        refine move_change_of_some (a := a) ?_ ?_
        · simp [Call.action?, hsufficient, hcompile, Except.toOption]
        · simp [Store.insert, hsufficient, hcompile]
      | error error =>
        refine move_change_of_none ?_ ?_
        · simp [Call.action?, hsufficient, hcompile, Except.toOption]
        · simp [Store.insert, hsufficient, hcompile]
    · refine move_change_of_none ?_ ?_
      · simp [Call.action?, hsufficient]
      · simp [Store.insert, hsufficient]
  | update root predicate values =>
    cases hcompile : values.updating m root predicate with
    | ok a =>
      by_cases hidle : a.isIdle = true
      · refine move_change_of_none ?_ ?_
        · simp [Call.action?, hidle, hcompile, Except.toOption]
        · simp [Store.update, hidle, hcompile]
      · refine move_change_of_some (a := a) ?_ ?_
        · simp [Call.action?, hidle, hcompile, Except.toOption]
        · simp [Store.update, hidle, hcompile]
    | error error =>
      refine move_change_of_none ?_ ?_
      · simp [Call.action?, hcompile, Except.toOption]
      · simp [Store.update, hcompile]
  | delete root predicate =>
    cases hcompile : deletion m root predicate with
    | ok a =>
      refine move_change_of_some (a := a) ?_ ?_
      · simp [Call.action?, hcompile, Except.toOption]
      · simp [Store.delete, hcompile]
    | error error =>
      refine move_change_of_none ?_ ?_
      · simp [Call.action?, hcompile, Except.toOption]
      · simp [Store.delete, hcompile]
  | fetch root request decode =>
    simp only [perform]
    split
    · split <;> exact .still rfl nofun nofun
    · exact .still rfl nofun nofun
  | observe root request decode =>
    simp only [perform]
    split
    next hopen =>
      unfold Store.observe
      cases hcompile : request.compile m root with
      | error error => exact .still rfl nofun nofun
      | ok q =>
        cases hrows : Store.results x.store.database moment q decode with
        | error error =>
          simp only [hrows]
          exact .unobserved rfl hopen
        | ok rows =>
          simp only [hrows]
          exact .observed rfl hopen hcompile hrows
    next => exact .still rfl nofun nofun
  | advance i count =>
    simp only [perform]
    split
    next o ho => exact .advanced rfl ho
    next => exact .still rfl nofun nofun
  | drop i =>
    simp only [perform]
    split
    next o ho => exact .dropped rfl ho
    next => exact .still rfl nofun nofun
  | countSubscribers =>
    simp only [perform]
    split
    next hopen => exact .cleaned _ rfl hopen
    next => exact .still rfl nofun nofun
  | close => exact .closed rfl

end Session

/-! ### Steps of an observation -/

/-- Two logs are the same but for what waits in one inbox. -/
structure Log.SameBut (id : Nat) (log log' : Log) : Prop where
  last : log'.last = log.last
  senders : log'.senders = log.senders
  next : log'.nextSubscriber = log.nextSubscriber
  isOpen : log'.isOpen = log.isOpen
  contains : log'.inboxes.contains id = log.inboxes.contains id
  others : ∀ id', id' ≠ id → log'.inboxes.get? id' = log.inboxes.get? id'

namespace Log.SameBut

variable {id : Nat} {log log' log'' : Log}

theorem refl (id : Nat) (log : Log) : SameBut id log log :=
  ⟨rfl, rfl, rfl, rfl, rfl, fun _ _ => rfl⟩

theorem trans (h : SameBut id log log') (h' : SameBut id log' log'') : SameBut id log log'' where
  last := h'.last.trans h.last
  senders := h'.senders.trans h.senders
  next := h'.next.trans h.next
  isOpen := h'.isOpen.trans h.isOpen
  contains := h'.contains.trans h.contains
  others id' hid := (h'.others id' hid).trans (h.others id' hid)

theorem contains_eq (h : SameBut id log log') (id' : Nat) :
    log'.inboxes.contains id' = log.inboxes.contains id' := by
  by_cases hid : id' = id
  · rw [hid, h.contains]
  · rw [SortedMap.contains, SortedMap.contains, h.others id' hid]

theorem drain (id : Nat) (log : Log) : SameBut id log (log.drain id).2 := by
  unfold Log.drain
  split
  next entries hid =>
    refine ⟨rfl, rfl, rfl, rfl, ?_, fun id' hne => ?_⟩
    · simp [SortedMap.contains, hid]
    · simp [hne]
  next => exact refl id log

theorem wired (h : SameBut id log log') (hwired : log.Wired) : log'.Wired :=
  hwired.of_subset h.senders h.next fun id' hid => (h.contains_eq id').symm.trans hid

end Log.SameBut

theorem Log.inbox_drain (log : Log) (id : Nat) : (log.drain id).2.inbox id = [] := by
  unfold Log.drain
  split
  next entries hid => simp [Log.inbox]
  next hid => simp [Log.inbox, hid]

namespace Observation

variable {α : Type}

/-- The observation is the same as before up to where it stands and what it last fetched. -/
structure SameAs (o o' : Observation α) : Prop where
  query : o'.query = o.query
  decode : o'.decode = o.decode
  subscriber : o'.subscriber = o.subscriber

theorem SameAs.refl (o : Observation α) : o.SameAs o := ⟨rfl, rfl, rfl⟩

theorem SameAs.trans {o o' o'' : Observation α} (h : o.SameAs o') (h' : o'.SameAs o'') :
    o.SameAs o'' :=
  ⟨h'.query.trans h.query, h'.decode.trans h.decode, h'.subscriber.trans h.subscriber⟩

variable [DecidableEq α]

/-- A step of an observation leaves the database alone, and all inboxes but its own. -/
theorem step_sameBut (moment : Binary64) (o : Observation α) (s : Store) :
    o.SameAs (o.step moment s).2.1 ∧ (o.step moment s).2.2.database = s.database ∧
      Log.SameBut o.subscriber s.log (o.step moment s).2.2.log := by
  have hstill := Log.SameBut.refl o.subscriber s.log
  unfold step
  cases o.phase with
  | fresh => exact ⟨⟨rfl, rfl, rfl⟩, rfl, hstill⟩
  | ended => exact ⟨SameAs.refl o, rfl, hstill⟩
  | waiting =>
    simp only [takeActions]
    split
    · split
      · exact ⟨SameAs.refl o, rfl, hstill⟩
      · exact ⟨⟨rfl, rfl, rfl⟩, rfl, hstill⟩
    · exact ⟨⟨rfl, rfl, rfl⟩, rfl, Log.SameBut.drain o.subscriber s.log⟩
  | stale =>
    simp only [refetch]
    split
    · split
      · split <;> exact ⟨⟨rfl, rfl, rfl⟩, rfl, hstill⟩
      · exact ⟨⟨rfl, rfl, rfl⟩, rfl, hstill⟩
    · exact ⟨⟨rfl, rfl, rfl⟩, rfl, hstill⟩

/-- The steps after a silent one. -/
theorem steps_succ_of_silent {moment : Binary64} {o : Observation α} {s : Store} (count : Nat)
    (h : (o.step moment s).1 = .silent) :
    o.steps moment (count + 1) s =
      (o.step moment s).2.1.steps moment count (o.step moment s).2.2 := by
  rw [steps]
  rcases hresult : o.step moment s with ⟨d, o', s'⟩
  rw [hresult] at h
  subst h
  rfl

/-- A step that says something is the last one. -/
theorem steps_succ_of_ne {moment : Binary64} {o : Observation α} {s : Store} (count : Nat)
    (h : (o.step moment s).1 ≠ .silent) : o.steps moment (count + 1) s = o.step moment s := by
  rw [steps]
  rcases hresult : o.step moment s with ⟨d, o', s'⟩
  rw [hresult] at h
  cases d with
  | silent => exact absurd rfl h
  | _ => rfl

/-- So do any number of steps. -/
theorem steps_sameBut (moment : Binary64) (count : Nat) (o : Observation α) (s : Store) :
    o.SameAs (o.steps moment count s).2.1 ∧ (o.steps moment count s).2.2.database = s.database ∧
      Log.SameBut o.subscriber s.log (o.steps moment count s).2.2.log := by
  induction count generalizing o s with
  | zero => exact ⟨SameAs.refl o, rfl, Log.SameBut.refl o.subscriber s.log⟩
  | succ count ih =>
    obtain ⟨hsame, hdb, hlog⟩ := step_sameBut moment o s
    by_cases hsilent : (o.step moment s).1 = .silent
    · rw [steps_succ_of_silent count hsilent]
      obtain ⟨hsame', hdb', hlog'⟩ := ih (o.step moment s).2.1 (o.step moment s).2.2
      rw [hsame.subscriber] at hlog'
      exact ⟨hsame.trans hsame', hdb'.trans hdb, hlog.trans hlog'⟩
    · rw [steps_succ_of_ne count hsilent]
      exact ⟨hsame, hdb, hlog⟩

end Observation

/-! ### Inboxes of observations -/

theorem getElem?_concat {β : Type} {l : List β} {a b : β} {i : Nat}
    (h : (l ++ [a])[i]? = some b) : l[i]? = some b ∨ i = l.length ∧ b = a := by
  by_cases hi : i < l.length
  · rw [List.getElem?_append_left hi] at h
    exact Or.inl h
  · rw [List.getElem?_append_right (Nat.le_of_not_lt hi)] at h
    obtain ⟨hzero, rfl⟩ := List.getElem?_eq_some_iff.mp h
    have hlast : i - l.length = 0 := Nat.lt_one_iff.mp hzero
    refine Or.inr ⟨by omega, ?_⟩
    simp [hlast]

/-- Who is there after someone was dropped was there before, in another place. -/
theorem getElem?_set_none {β : Type} {l : List (Option β)} {b : β} {i j : Nat}
    (h : (l.set i none)[j]? = some (some b)) : i ≠ j ∧ l[j]? = some (some b) := by
  by_cases hij : i = j
  · subst hij
    have hi := (List.getElem?_eq_some_iff.mp h).1
    rw [List.length_set] at hi
    rw [List.getElem?_set_self hi] at h
    cases h
  · rw [List.getElem?_set_ne hij] at h
    exact ⟨hij, h⟩

/-- Who is there after someone was put in a place is this one, or was there before. -/
theorem getElem?_set_some {β : Type} {l : List (Option β)} {a b : β} {i j : Nat}
    (h : (l.set i (some a))[j]? = some (some b)) :
    i = j ∧ b = a ∨ i ≠ j ∧ l[j]? = some (some b) := by
  by_cases hij : i = j
  · subst hij
    have hi := (List.getElem?_eq_some_iff.mp h).1
    rw [List.length_set] at hi
    rw [List.getElem?_set_self hi] at h
    exact Or.inl ⟨rfl, (Option.some.inj (Option.some.inj h)).symm⟩
  · rw [List.getElem?_set_ne hij] at h
    exact Or.inr ⟨hij, h⟩

namespace Session

variable {ι α : Type}

/-- Every observation holds an inbox of its own, to which the log sends while it can. -/
structure Linked (x : Session α) : Prop where
  wired : x.store.isOpen = true → x.store.log.Wired
  held : ∀ (i : Nat) (o : Observation α), x.observations[i]? = some (some o) →
    x.store.log.inboxes.contains o.subscriber = true
  apart : ∀ (i j : Nat) (o o' : Observation α), x.observations[i]? = some (some o) →
    x.observations[j]? = some (some o') → o.subscriber = o'.subscriber → i = j

theorem linked_start {s : Store} (h : s.log.Wired) : (start s : Session α).Linked :=
  ⟨fun _ => h, nofun, nofun⟩

/-- Observations that are left, or the same as before, still have inboxes of their own. -/
theorem Linked.of_subset {x x' : Session α} (h : x.Linked)
    (hwired : x'.store.isOpen = true → x'.store.log.Wired)
    (hobservations : ∀ (i : Nat) (o' : Observation α), x'.observations[i]? = some (some o') →
      ∃ o, x.observations[i]? = some (some o) ∧ o'.subscriber = o.subscriber ∧
        x'.store.log.inboxes.contains o.subscriber = x.store.log.inboxes.contains o.subscriber) :
    x'.Linked where
  wired := hwired
  held i o' ho' := by
    obtain ⟨o, ho, hsame, hinbox⟩ := hobservations i o' ho'
    rw [hsame, hinbox]
    exact h.held i o ho
  apart i j o₁ o₂ h₁ h₂ hsame := by
    obtain ⟨o₁', h₁', hsame₁, -⟩ := hobservations i o₁ h₁
    obtain ⟨o₂', h₂', hsame₂, -⟩ := hobservations j o₂ h₂
    exact h.apart i j o₁' o₂' h₁' h₂' (hsame₁.symm.trans (hsame.trans hsame₂))

/-- A new subscriber is none of the observations. -/
theorem Linked.subscriber_ne {x : Session α} (h : x.Linked) (hopen : x.store.isOpen = true)
    {i : Nat} {o : Observation α} (ho : x.observations[i]? = some (some o)) :
    o.subscriber ≠ x.store.log.subscribe.1 :=
  Nat.ne_of_lt ((h.wired hopen).fresh _ (h.held i o ho))

theorem contains_subscribe {x : Session α} (h : x.Linked) (hopen : x.store.isOpen = true)
    {i : Nat} {o : Observation α} (ho : x.observations[i]? = some (some o)) :
    x.store.log.subscribe.2.inboxes.contains o.subscriber =
      x.store.log.inboxes.contains o.subscriber := by
  obtain ⟨queue, hqueue⟩ := Option.isSome_iff_exists.mp (h.held i o ho)
  rw [SortedMap.contains, SortedMap.contains, (h.wired hopen).get?_subscribe hqueue, hqueue]

variable [DecidableEq α]

/-- Observations keep their own inboxes. -/
theorem Linked.move {m : Model ι} {x x' : Session α} {e : Event ι α} {out : Outcome α}
    (h : x.Linked) (hmove : Move m x e out x') : x'.Linked := by
  cases hmove with
  | @applied a db effect hopen haction hexecute =>
    refine h.of_subset (fun _ => (h.wired hopen).append a) fun i o ho => ⟨o, ho, rfl, ?_⟩
    simp [Log.append, SortedMap.contains]
  | still hexecuted hquiet hstarted => exact h
  | @observed root request decode q rows hcall hopen hcompile hrows =>
    have hwired := (h.wired hopen).subscribe
    have hcases : ∀ (i : Nat) (o : Observation α),
        (x.observations ++ [some ⟨q, decode, x.store.log.subscribe.1, rows, .fresh⟩])[i]? =
          some (some o) → x.observations[i]? = some (some o) ∨
            i = x.observations.length ∧ o.subscriber = x.store.log.subscribe.1 := by
      intro i o ho
      rcases getElem?_concat ho with ho | ⟨hi, ho⟩
      · exact Or.inl ho
      · exact Or.inr ⟨hi, congrArg Observation.subscriber (Option.some.inj ho)⟩
    refine ⟨fun _ => hwired, fun i o ho => ?_, fun i j o o' ho ho' hsame => ?_⟩
    · rcases hcases i o ho with ho | ⟨-, ho⟩
      · exact (contains_subscribe h hopen ho).trans (h.held i o ho)
      · rw [ho, SortedMap.contains, Log.get?_subscribe_self, Option.isSome_some]
    · rcases hcases i o ho with ho | ⟨hi, hio⟩ <;>
        rcases hcases j o' ho' with ho' | ⟨hj, hjo⟩
      · exact h.apart i j o o' ho ho' hsame
      · exact absurd (hsame.trans hjo) (h.subscriber_ne hopen ho)
      · exact absurd (hsame.symm.trans hio) (h.subscriber_ne hopen ho')
      · rw [hi, hj]
  | unobserved hcall hopen =>
    refine h.of_subset (fun _ => (h.wired hopen).subscribe.dropInbox _) fun i o ho =>
      ⟨o, ho, rfl, ?_⟩
    have hne := h.subscriber_ne hopen ho
    have hold := contains_subscribe h hopen ho
    rw [SortedMap.contains, Log.get?_dropInbox hne]
    exact hold
  | @advanced i count o hcall ho =>
    obtain ⟨hsame, -, hlog⟩ := o.steps_sameBut e.moment count x.store
    refine h.of_subset (fun hopen => ?_) fun j o' ho' => ?_
    · exact hlog.wired (h.wired (hlog.isOpen.symm.trans hopen))
    · rcases getElem?_set_some ho' with ⟨rfl, rfl⟩ | ⟨-, ho'⟩
      · exact ⟨o, ho, hsame.subscriber, hlog.contains_eq _⟩
      · exact ⟨o', ho', rfl, hlog.contains_eq _⟩
  | @dropped i o hcall ho =>
    refine h.of_subset (fun hopen => (h.wired hopen).dropInbox _) fun j o' ho' => ?_
    obtain ⟨hij, ho'⟩ := getElem?_set_none ho'
    refine ⟨o', ho', rfl, ?_⟩
    have hne : o'.subscriber ≠ o.subscriber := fun he => hij (h.apart i j o o' ho ho' he.symm)
    change (x.store.log.dropInbox o.subscriber).inboxes.contains _ = _
    rw [SortedMap.contains, SortedMap.contains, Log.get?_dropInbox hne]
  | cleaned count hcall hopen =>
    exact h.of_subset (fun _ => (h.wired hopen).cleanup) fun i o ho => ⟨o, ho, rfl, rfl⟩
  | closed hcall =>
    exact h.of_subset (fun hopen => by cases hopen) fun i o ho => ⟨o, ho, rfl, rfl⟩

theorem linked_perform (m : Model ι) {x : Session α} (h : x.Linked) (e : Event ι α) :
    (x.perform m e).2.Linked := h.move (move_perform m x e)

theorem linked_run (m : Model ι) {x : Session α} (h : x.Linked) (es : List (Event ι α)) :
    (x.run m es).Linked := by
  induction es generalizing x with
  | nil => exact h
  | cons e es ih => exact ih (linked_perform m h e)

/-! ### Database and log -/

variable {m : Model ι} {x x' : Session α} {e : Event ι α} {out : Outcome α}

/-- An observation after a call was there before, or it is a new subscriber. -/
theorem Move.observations (hmove : Move m x e out x') {i : Nat} {o' : Observation α}
    (ho' : x'.observations[i]? = some (some o')) :
    (∃ o, x.observations[i]? = some (some o) ∧ o.SameAs o') ∨
      x.store.isOpen = true ∧ o'.subscriber = x.store.log.subscribe.1 := by
  have hold : x.observations[i]? = some (some o') →
      ∃ o, x.observations[i]? = some (some o) ∧ o.SameAs o' :=
    fun ho => ⟨o', ho, Observation.SameAs.refl o'⟩
  cases hmove with
  | applied hopen haction hexecute => exact Or.inl (hold ho')
  | still hexecuted hquiet hstarted => exact Or.inl (hold ho')
  | observed hcall hopen hcompile hrows =>
    rcases getElem?_concat ho' with ho' | ⟨-, ho'⟩
    · exact Or.inl (hold ho')
    · exact Or.inr ⟨hopen, congrArg Observation.subscriber (Option.some.inj ho')⟩
  | unobserved hcall hopen => exact Or.inl (hold ho')
  | @advanced j count o hcall ho =>
    rcases getElem?_set_some ho' with ⟨rfl, rfl⟩ | ⟨-, ho'⟩
    · exact Or.inl ⟨o, ho, (o.steps_sameBut e.moment count x.store).1⟩
    · exact Or.inl (hold ho')
  | dropped hcall ho => exact Or.inl (hold (getElem?_set_none ho').2)
  | cleaned count hcall hopen => exact Or.inl (hold ho')
  | closed hcall => exact Or.inl (hold ho')

/-- Calls to others leave an observation as it is. -/
theorem Move.observation_of_ne (hmove : Move m x e out x') {i : Nat}
    (hi : i < x.observations.length) (hplace : e.call.place? ≠ some i) :
    x'.observations[i]? = x.observations[i]? := by
  cases hmove with
  | applied hopen haction hexecute => rfl
  | still hexecuted hquiet hstarted => rfl
  | observed hcall hopen hcompile hrows => exact List.getElem?_append_left hi
  | unobserved hcall hopen => rfl
  | @advanced j count o hcall ho =>
    refine List.getElem?_set_ne fun hij => hplace ?_
    rw [hcall, ← hij]
    rfl
  | @dropped j o hcall ho =>
    refine List.getElem?_set_ne fun hij => hplace ?_
    rw [hcall, ← hij]
    rfl
  | cleaned count hcall hopen => rfl
  | closed hcall => rfl

/-- A call to an observation lets it take some steps, or drops it, unless it is gone. -/
theorem Move.of_place? (hmove : Move m x e out x') {i : Nat} (hplace : e.call.place? = some i) :
    (x' = x ∧ ∀ d, out ≠ .delivery d) ∨
      (∃ o count, x.observations[i]? = some (some o) ∧
        out = .delivery (o.steps e.moment count x.store).1 ∧
        x' = ⟨(o.steps e.moment count x.store).2.2,
          x.observations.set i (some (o.steps e.moment count x.store).2.1)⟩) ∨
      ∃ o, x.observations[i]? = some (some o) ∧ out = .done ∧
        x' = ⟨x.store.dropObservation o, x.observations.set i none⟩ := by
  cases hmove with
  | applied hopen haction hexecute =>
    rw [Call.action?_of_place? hplace] at haction
    cases haction
  | still hexecuted hquiet hstarted => exact Or.inl ⟨rfl, hquiet⟩
  | @advanced j count o hcall ho =>
    rw [hcall] at hplace
    obtain rfl := Option.some.inj hplace
    exact Or.inr (Or.inl ⟨o, count, ho, rfl, rfl⟩)
  | @dropped j o hcall ho =>
    rw [hcall] at hplace
    obtain rfl := Option.some.inj hplace
    exact Or.inr (Or.inr ⟨o, ho, rfl, rfl⟩)
  | observed hcall hopen hcompile hrows => rw [hcall] at hplace; cases hplace
  | unobserved hcall hopen => rw [hcall] at hplace; cases hplace
  | cleaned count hcall hopen => rw [hcall] at hplace; cases hplace
  | closed hcall => rw [hcall] at hplace; cases hplace

/-- Observations keep their places. -/
theorem Move.length_le (hmove : Move m x e out x') :
    x.observations.length ≤ x'.observations.length := by
  cases hmove with
  | applied hopen haction hexecute => exact Nat.le_refl _
  | still hexecuted hquiet hstarted => exact Nat.le_refl _
  | observed hcall hopen hcompile hrows =>
    rw [List.length_append]
    exact Nat.le_add_right _ _
  | unobserved hcall hopen => exact Nat.le_refl _
  | advanced hcall ho => exact Nat.le_of_eq List.length_set.symm
  | dropped hcall ho => exact Nat.le_of_eq List.length_set.symm
  | cleaned count hcall hopen => exact Nat.le_refl _
  | closed hcall => exact Nat.le_refl _

/-- **Database and numbering move together.**  Either an action is executed and numbered, or both
stay as they are. -/
theorem Move.database (hmove : Move m x e out x') :
    (∃ a effect, e.executed? m out = some (e.moment, a) ∧ x.store.isOpen = true ∧
        x.database.execute e.moment a = .ok (x'.database, effect) ∧
        x'.store.log.last = x.store.log.last + 1) ∨
      e.executed? m out = none ∧ x'.database = x.database ∧
        x'.store.log.last = x.store.log.last := by
  cases hmove with
  | @applied a db effect hopen haction hexecute =>
    refine Or.inl ⟨a, effect, ?_, hopen, hexecute, rfl⟩
    rw [Event.executed?, haction, Option.map_some]
  | still hexecuted hquiet hstarted => exact Or.inr ⟨hexecuted, rfl, rfl⟩
  | observed hcall hopen hcompile hrows => exact Or.inr ⟨rfl, rfl, rfl⟩
  | unobserved hcall hopen => exact Or.inr ⟨rfl, rfl, rfl⟩
  | @advanced i count o hcall ho =>
    obtain ⟨-, hdb, hlog⟩ := o.steps_sameBut e.moment count x.store
    exact Or.inr ⟨rfl, hdb, hlog.last⟩
  | dropped hcall ho => exact Or.inr ⟨rfl, rfl, rfl⟩
  | cleaned count hcall hopen => exact Or.inr ⟨rfl, rfl, rfl⟩
  | closed hcall => exact Or.inr ⟨rfl, rfl, rfl⟩

/-- **What waits in an inbox.**  A call adds the action that it executes, unless the inbox is that
of the observation to which it is made. -/
theorem Move.inbox (hmove : Move m x e out x') (h : x.Linked) {id : Nat} {queue : List Entry}
    (hid : x.store.log.inboxes.get? id = some queue)
    (hother : ∀ (i : Nat) (o : Observation α), e.call.place? = some i →
      x.observations[i]? = some (some o) → id ≠ o.subscriber) :
    x'.store.log.inboxes.get? id = some (queue ++
      Entry.numbered (x.store.log.last + 1) ((e.executed? m out).toList.map (·.2))) := by
  cases hmove with
  | @applied a db effect hopen haction hexecute =>
    rw [Event.executed?, haction, Option.map_some]
    exact (h.wired hopen).get?_append hid a
  | still hexecuted hquiet hstarted =>
    rw [hexecuted, hid]
    exact congrArg some (List.append_nil queue).symm
  | observed hcall hopen hcompile hrows =>
    refine ((h.wired hopen).get?_subscribe hid).trans ?_
    exact congrArg some (List.append_nil queue).symm
  | unobserved hcall hopen =>
    have hlt : id < x.store.log.nextSubscriber :=
      (h.wired hopen).fresh id (by simp [SortedMap.contains, hid])
    refine ((Log.get?_dropInbox (Nat.ne_of_lt hlt)).trans
      ((h.wired hopen).get?_subscribe hid)).trans ?_
    exact congrArg some (List.append_nil queue).symm
  | @advanced i count o hcall ho =>
    obtain ⟨-, -, hlog⟩ := o.steps_sameBut e.moment count x.store
    have hne := hother i o (by rw [hcall]; rfl) ho
    refine ((hlog.others id hne).trans hid).trans ?_
    exact congrArg some (List.append_nil queue).symm
  | @dropped i o hcall ho =>
    have hne := hother i o (by rw [hcall]; rfl) ho
    refine ((Log.get?_dropInbox hne).trans hid).trans ?_
    exact congrArg some (List.append_nil queue).symm
  | cleaned count hcall hopen => exact hid.trans (congrArg some (List.append_nil queue).symm)
  | closed hcall => exact hid.trans (congrArg some (List.append_nil queue).symm)

end Session

end LiveQuery
