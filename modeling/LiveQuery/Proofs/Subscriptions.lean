import LiveQuery.Proofs.Freshness
import Mathlib.Data.List.Nodup

/-!
# Counting subscribers

The log of a store counts whom it sends to, and a subscriber that goes away does not tell it.  An
observation subscribes before it takes its first results, so one that cannot take them leaves a
sending end without an inbox behind, as a dropped one does.  What makes the count right after all is
that it is taken after a clean-up, which asks for the inboxes, and that inboxes and observations
correspond to each other.

For the first part, a log is followed together with a list of those who hold an inbox
(`Log.Counted`).  As nobody is sent to twice, cleaning up leaves exactly these.  For the second,
the list is that of the subscribers of a session (`Session.Counted`): a call that starts or drops an
observation changes it as it changes the inboxes, and every other call leaves both alone.

## Main definitions

* `Log.holders`: who holds an inbox, going by the operations and the replies to them.
* `Log.Counted`: what a log has to do with those who hold its inboxes.
* `Session.live`: which observations were started and not dropped, going by the calls and what they
  give back.

## Main results

* `Log.Counted.perform`, `Log.Counted.run`: a log is followed through any operations.
* `Session.Counted.perform`, `Session.Counted.run`: a session is followed through any calls.
* `Session.subscribers_match`: the count is the number of live observations.
-/

namespace LiveQuery

/-! ### Holders of inboxes -/

namespace Log

/-- Who holds an inbox after an operation, if some did before. -/
def hold (held : List Nat) : Op × Reply → List Nat
  | (_, .subscriber id) => held ++ [id]
  | (.dropInbox id, _) => held.erase id
  | _ => held

/-- Who holds an inbox of a new log after some operations. -/
def holders (replies : List (Op × Reply)) : List Nat := replies.foldl hold []

/-- A log sends to nobody twice, and some subscribers, each listed once, are those who hold an
inbox. -/
structure Counted (log : Log) (held : List Nat) : Prop where
  wired : log.Wired
  /-- Nobody is sent to twice. -/
  once : log.senders.Nodup
  /-- The next subscriber is not sent to yet. -/
  known : ∀ id ∈ log.senders, id < log.nextSubscriber
  /-- Nobody is listed twice. -/
  distinct : held.Nodup
  mem_held : ∀ id, id ∈ held ↔ log.inboxes.contains id = true

variable {log log' : Log} {held : List Nat}

theorem counted_empty : Counted ∅ [] where
  wired := wired_empty
  once := .nil
  known := nofun
  distinct := .nil
  mem_held _ := ⟨nofun, nofun⟩

/-- Forgetting to send to some does not matter as long as the inboxes that are held stay held. -/
theorem Counted.of_sublist (h : log.Counted held) (hwired : log'.Wired)
    (hsenders : log'.senders.Sublist log.senders)
    (hnext : log'.nextSubscriber = log.nextSubscriber)
    (hinboxes : ∀ id, log'.inboxes.contains id = log.inboxes.contains id) :
    log'.Counted held where
  wired := hwired
  once := h.once.sublist hsenders
  known id hid := hnext ▸ h.known id (hsenders.subset hid)
  distinct := h.distinct
  mem_held id := by rw [hinboxes, h.mem_held]

theorem Counted.cleanup (h : log.Counted held) : log.cleanup.Counted held :=
  h.of_sublist h.wired.cleanup List.filter_sublist rfl fun _ => rfl

theorem Counted.append (h : log.Counted held) (a : Action) : (log.append a).Counted held := by
  refine h.of_sublist (h.wired.append a) List.filter_sublist rfl fun id => ?_
  simp [Log.append, SortedMap.contains]

theorem Counted.receive (h : log.Counted held) (id : Nat) : (log.receive id).2.Counted held := by
  have hwired := h.wired.receive id
  unfold Log.receive at hwired ⊢
  split at hwired
  next entry rest hid =>
    refine h.of_sublist hwired (List.Sublist.refl _) rfl fun id' => ?_
    by_cases hne : id' = id
    · simp [SortedMap.contains, hne, hid]
    · simp [SortedMap.contains, hne]
  next => exact h

theorem Counted.subscriber_notMem (h : log.Counted held) : log.subscribe.1 ∉ held := fun hmem =>
  Nat.lt_irrefl _ (h.wired.fresh _ ((h.mem_held _).mp hmem))

/-- A new subscriber holds an inbox from then on. -/
theorem Counted.subscribe (h : log.Counted held) :
    log.subscribe.2.Counted (held ++ [log.subscribe.1]) := by
  have hnew := h.subscriber_notMem
  have hunsent : log.nextSubscriber ∉ log.cleanup.senders := fun hmem =>
    Nat.lt_irrefl _ (h.cleanup.known _ hmem)
  refine ⟨h.wired.subscribe, ?_, fun id hid => ?_, ?_, fun id => ?_⟩
  · have honce := h.cleanup.once.concat hunsent
    rwa [List.concat_eq_append] at honce
  · rcases List.mem_append.mp hid with hid | hid
    · exact Nat.lt_succ_of_lt (h.cleanup.known id hid)
    · rw [List.mem_singleton.mp hid]
      exact Nat.lt_succ_self _
  · have hdistinct := h.distinct.concat hnew
    rwa [List.concat_eq_append] at hdistinct
  · rw [List.mem_append, List.mem_singleton, h.mem_held]
    by_cases hid : id = log.nextSubscriber <;>
      simp [Log.subscribe, Log.cleanup, SortedMap.contains, hid]

/-- Whoever drops an inbox holds none from then on. -/
theorem Counted.dropInbox (h : log.Counted held) (id : Nat) :
    (log.dropInbox id).Counted (held.erase id) where
  wired := h.wired.dropInbox id
  once := h.once
  known := h.known
  distinct := h.distinct.erase id
  mem_held id' := by
    rw [h.distinct.mem_erase_iff, h.mem_held]
    by_cases hid : id' = id <;> simp [Log.dropInbox, SortedMap.contains, hid]

/-- A subscription that is given up again changes nothing. -/
theorem Counted.subscribe_dropInbox (h : log.Counted held) :
    (log.subscribe.2.dropInbox log.subscribe.1).Counted held := by
  have hdrop := h.subscribe.dropInbox log.subscribe.1
  rwa [List.erase_append_right _ h.subscriber_notMem, List.erase_cons_head,
    List.append_nil] at hdrop

/-- What waits in inboxes does not matter. -/
theorem Counted.of_sameBut {id : Nat} (h : log.Counted held) (hsame : SameBut id log log') :
    log'.Counted held :=
  h.of_sublist (hsame.wired h.wired) (hsame.senders ▸ List.Sublist.refl _) hsame.next
    hsame.contains_eq

/-- A log is followed through an operation. -/
theorem Counted.perform (h : log.Counted held) (op : Op) :
    (log.perform op).2.Counted (hold held (op, (log.perform op).1)) := by
  cases op with
  | append a => exact h.append a
  | subscribe => exact h.subscribe
  | cleanup => exact h.cleanup
  | dropInbox id => exact h.dropInbox id
  | receive id => exact h.receive id

/-- A log is followed through any operations. -/
theorem Counted.run (h : log.Counted held) (ops : List Op) :
    (log.run ops).Counted ((log.replies ops).foldl hold held) := by
  induction ops generalizing log held with
  | nil => exact h
  | cons op ops ih => exact ih (h.perform op)

/-- A clean-up leaves those who hold an inbox. -/
theorem Counted.perm_filter (h : log.Counted held) :
    (log.senders.filter log.inboxes.contains).Perm held := by
  refine (List.perm_ext_iff_of_nodup (h.once.filter _) h.distinct).mpr fun id => ?_
  rw [List.mem_filter, h.mem_held]
  exact ⟨And.right, fun hid => ⟨h.wired.sends id hid, hid⟩⟩

/-- After a clean-up the count is right. -/
theorem Counted.subscriberCount_cleanup (h : log.Counted held) :
    log.cleanup.subscriberCount = held.length := h.perm_filter.length_eq

/-- The count is never too low. -/
theorem Counted.length_le (h : log.Counted held) : held.length ≤ log.subscriberCount := by
  rw [← h.perm_filter.length_eq]
  exact List.length_filter_le _ _

end Log

/-! ### Live observations -/

/-- The places of the live observations after a call, going by what it gives back, if those before
it are known. -/
def Event.hold {ι α : Type} (e : Event ι α) (places : List Nat) (out : Outcome α) : List Nat :=
  match e.call, out with
  | .observe .., .observing i => places ++ [i]
  | .drop i, .done => places.erase i
  | _, _ => places

/-- A call that neither starts nor drops an observation leaves the live ones as they are. -/
theorem Event.hold_of_ne {ι α : Type} {e : Event ι α} {out : Outcome α}
    (hstarted : ∀ i, out ≠ .observing i) (hdrop : ∀ i, e.call ≠ .drop i) (places : List Nat) :
    e.hold places out = places := by
  unfold hold
  split
  next i hcall => exact absurd rfl (hstarted i)
  next i hcall => exact absurd hcall (hdrop i)
  next => rfl

namespace Session

variable {ι α : Type}

/-- The subscribers of the observations that are not dropped. -/
def subscribers (x : Session α) : List Nat :=
  x.observations.filterMap fun o? => o?.map Observation.subscriber

variable {x : Session α} {i : Nat} {o o' : Observation α} {places : List Nat}

theorem mem_subscribers (ho : x.observations[i]? = some (some o)) : o.subscriber ∈ x.subscribers :=
  List.mem_filterMap.mpr ⟨some o, List.mem_of_getElem? ho, rfl⟩

/-- Another state of an observation has the same subscriber. -/
theorem subscribers_set_some (ho : x.observations[i]? = some (some o))
    (hsame : o'.subscriber = o.subscriber) (s : Store) :
    subscribers ⟨s, x.observations.set i (some o')⟩ = x.subscribers := by
  obtain ⟨hi, ho⟩ := List.getElem?_eq_some_iff.mp ho
  obtain ⟨before, after, hsplit, -, hset⟩ := @List.exists_of_set _ i (some o') _ hi
  rw [subscribers, subscribers, hset]
  conv_rhs => rw [hsplit, ho]
  simp [hsame]

/-- Without an observation its subscriber is missing. -/
theorem subscribers_set_none (ho : x.observations[i]? = some (some o))
    (hdistinct : x.subscribers.Nodup) (s : Store) :
    subscribers ⟨s, x.observations.set i none⟩ = x.subscribers.erase o.subscriber := by
  obtain ⟨hi, ho⟩ := List.getElem?_eq_some_iff.mp ho
  obtain ⟨before, after, hsplit, -, hset⟩ := @List.exists_of_set _ i none _ hi
  let name : Option (Observation α) → Option Nat := fun o? => o?.map Observation.subscriber
  have hold : x.subscribers = before.filterMap name ++ o.subscriber :: after.filterMap name := by
    rw [subscribers, hsplit, ho, List.filterMap_append]
    rfl
  have hbefore : o.subscriber ∉ before.filterMap name := by
    rw [hold, List.nodup_middle, List.nodup_cons] at hdistinct
    exact fun hmem => hdistinct.1 (List.mem_append_left _ hmem)
  rw [hold, List.erase_append_right _ hbefore, List.erase_cons_head, subscribers, hset,
    List.filterMap_append]
  rfl

theorem subscribers_concat (s : Store) :
    subscribers ⟨s, x.observations ++ [some o]⟩ = x.subscribers ++ [o.subscriber] :=
  List.filterMap_append

/-- The inboxes of the log are held by the observations of the session, and these are in as many
places as are listed. -/
structure Counted (x : Session α) (places : List Nat) : Prop where
  log : x.store.log.Counted x.subscribers
  placed : ∀ (i : Nat) (o : Observation α), x.observations[i]? = some (some o) → i ∈ places
  length_eq : places.length = x.subscribers.length

theorem counted_start {s : Store} (h : s.log.Counted []) : (start s : Session α).Counted [] :=
  ⟨h, nofun, rfl⟩

/-- Changes to the store that keep the inboxes keep the observations counted. -/
theorem Counted.of_log (h : x.Counted places) {s : Store} (hlog : s.log.Counted x.subscribers) :
    Counted ⟨s, x.observations⟩ places :=
  ⟨hlog, h.placed, h.length_eq⟩

/-- An observation in another state is still counted. -/
theorem Counted.advance (h : x.Counted places) (ho : x.observations[i]? = some (some o))
    (hsame : o'.subscriber = o.subscriber) {s : Store} (hlog : s.log.Counted x.subscribers) :
    Counted ⟨s, x.observations.set i (some o')⟩ places := by
  have hsubscribers := subscribers_set_some ho hsame s
  refine ⟨hsubscribers ▸ hlog, fun j o'' ho'' => ?_, hsubscribers ▸ h.length_eq⟩
  rcases getElem?_set_some ho'' with ⟨rfl, -⟩ | ⟨-, ho''⟩
  · exact h.placed i o ho
  · exact h.placed j o'' ho''

/-- A dropped observation is counted no more. -/
theorem Counted.drop (h : x.Counted places) (ho : x.observations[i]? = some (some o)) :
    Counted ⟨x.store.dropObservation o, x.observations.set i none⟩ (places.erase i) := by
  have hsubscribers := subscribers_set_none ho h.log.distinct (x.store.dropObservation o)
  refine ⟨?_, fun j o' ho' => ?_, ?_⟩
  · rw [hsubscribers]
    exact h.log.dropInbox o.subscriber
  · obtain ⟨hij, ho'⟩ := getElem?_set_none ho'
    exact (List.mem_erase_of_ne (Ne.symm hij)).mpr (h.placed j o' ho')
  · rw [hsubscribers, List.length_erase_of_mem (h.placed i o ho),
      List.length_erase_of_mem (mem_subscribers ho), h.length_eq]

/-- A started observation is counted. -/
theorem Counted.observe (h : x.Counted places) (ho : o.subscriber = x.store.log.subscribe.1) :
    Counted ⟨{ x.store with log := x.store.log.subscribe.2 }, x.observations ++ [some o]⟩
      (places ++ [x.observations.length]) := by
  refine ⟨?_, fun j o' ho' => ?_, ?_⟩
  · rw [subscribers_concat, ho]
    exact h.log.subscribe
  · rcases getElem?_concat ho' with ho' | ⟨hj, -⟩
    · exact List.mem_append_left _ (h.placed j o' ho')
    · rw [hj]
      exact List.mem_append_right _ List.mem_cons_self
  · rw [subscribers_concat, List.length_append, List.length_append, h.length_eq]
    rfl

variable [DecidableEq α] {m : Model ι} {e : Event ι α}

/-- Calls leave a store open unless they close it. -/
theorem isOpen_perform (hopen : x.store.isOpen = true) (hclose : e.call ≠ .close) :
    (x.perform m e).2.store.isOpen = true := by
  have hmove := move_perform m x e
  generalize (x.perform m e).1 = out, (x.perform m e).2 = x' at hmove
  cases hmove with
  | advanced hcall ho => exact ((Observation.steps_sameBut _ _ _ _).2.2.isOpen).trans hopen
  | closed hcall => exact absurd hcall hclose
  | _ => exact hopen

/-- A session is followed through a call that does not close its store. -/
theorem Counted.perform (h : x.Counted places) (hclose : e.call ≠ .close) :
    (x.perform m e).2.Counted (e.hold places (x.perform m e).1) := by
  by_cases hdrop : ∃ i, e.call = .drop i
  · -- The reply tells whether there was an observation to drop.
    obtain ⟨i, hcall⟩ := hdrop
    simp only [Session.perform, hcall, Event.hold]
    split
    next o ho => exact h.drop ho
    next => exact h
  have hmove := move_perform m x e
  generalize (x.perform m e).1 = out, (x.perform m e).2 = x' at hmove
  have hquiet (hstarted : ∀ i, out ≠ .observing i) : e.hold places out = places :=
    Event.hold_of_ne hstarted (fun i hcall => hdrop ⟨i, hcall⟩) places
  cases hmove with
  | applied hopen haction hexecute =>
    rw [hquiet fun i hi => by cases hi]
    exact h.of_log (h.log.append _)
  | still hexecuted _ hstarted =>
    rw [hquiet hstarted]
    exact h
  | observed hcall hopen hcompile hrows =>
    simp only [Event.hold, hcall]
    exact h.observe rfl
  | unobserved hcall hopen =>
    rw [hquiet fun i hi => by cases hi]
    exact h.of_log h.log.subscribe_dropInbox
  | @advanced i count o hcall ho =>
    rw [hquiet fun i hi => by cases hi]
    obtain ⟨hsame, -, hlog⟩ := o.steps_sameBut e.moment count x.store
    exact h.advance ho hsame.subscriber (h.log.of_sameBut hlog)
  | dropped hcall ho => exact absurd ⟨_, hcall⟩ hdrop
  | cleaned count hcall hopen =>
    rw [hquiet fun i hi => by cases hi]
    exact h.of_log h.log.cleanup
  | closed hcall => exact absurd hcall hclose

/-- The places of the live observations after some calls, if those before them are known.  An
observation is live from the call that starts it to the one that drops it. -/
def live (m : Model ι) (x : Session α) (places : List Nat) : List (Event ι α) → List Nat
  | [] => places
  | e :: rest => (x.perform m e).2.live m (e.hold places (x.perform m e).1) rest

variable {es : List (Event ι α)}

/-- A session is followed through any calls that do not close its store. -/
theorem Counted.run (h : x.Counted places) (hclose : ∀ e ∈ es, e.call ≠ .close) :
    (x.run m es).Counted (x.live m places es) := by
  induction es generalizing x places with
  | nil => exact h
  | cons e es ih =>
    obtain ⟨he, hes⟩ := List.forall_mem_cons.mp hclose
    exact ih (h.perform he) hes

theorem isOpen_run (hopen : x.store.isOpen = true) (hclose : ∀ e ∈ es, e.call ≠ .close) :
    (x.run m es).store.isOpen = true := by
  induction es generalizing x with
  | nil => exact hopen
  | cons e es ih =>
    obtain ⟨he, hes⟩ := List.forall_mem_cons.mp hclose
    exact ih (isOpen_perform hopen he) hes

/-- The count is the number of observations that are followed. -/
theorem Counted.countSubscribers (h : x.Counted places) (hopen : x.store.isOpen = true)
    (moment : Binary64) :
    (x.perform m ⟨moment, .countSubscribers⟩).1 = .subscribers places.length := by
  simp only [Session.perform, hopen, if_pos]
  rw [h.length_eq, ← h.log.subscriberCount_cleanup]
  rfl

/-- **Subscriptions match live observations.**  Whatever is called on an opened store and its
observations, the store counts the observations that were started with success and not dropped.
Over any operations on a log of its own, the count is never below the number of inboxes that are
held, and it is that number directly after an append or a clean-up. -/
theorem subscribers_match {entities : List ι} {db opened : Database} {s : Store}
    (hopen : Store.open? m entities db = (.ok s, opened))
    (hclose : ∀ e ∈ es, e.call ≠ .close) (ops : List Log.Op) :
    (∀ moment, (((start s : Session α).run m es).perform m ⟨moment, .countSubscribers⟩).1 =
        .subscribers ((start s : Session α).live m [] es).length) ∧
      (Log.holders ((∅ : Log).replies ops)).length ≤ ((∅ : Log).run ops).subscriberCount ∧
      (∀ a, (((∅ : Log).run ops).append a).subscriberCount =
        (Log.holders ((∅ : Log).replies ops)).length) ∧
      ((∅ : Log).run ops).cleanup.subscriberCount =
        (Log.holders ((∅ : Log).replies ops)).length := by
  obtain rfl := open?_eq_ok hopen
  have hlog := Log.counted_empty.run ops
  refine ⟨fun moment => ?_, hlog.length_le, fun a => ?_, hlog.subscriberCount_cleanup⟩
  · have hstart : (start ⟨opened, ∅⟩ : Session α).Counted [] := counted_start Log.counted_empty
    exact (hstart.run hclose).countSubscribers (isOpen_run rfl hclose) moment
  · exact hlog.subscriberCount_cleanup

/-- Assigns something to all notes. -/
def assign (moment : Int) (property : String) (value : Value) : Event Unit Row :=
  ⟨.ofInt moment, .update () none
    (.ofChanges notes () [.assign (.property property) (.literal value)])⟩

/-- A store for notes, in which there are none. -/
def notebook : Store := ⟨(Store.open? notes [()] .empty).2, ∅⟩

/-- A note is written. -/
def written : List (Event Unit Row) :=
  [⟨.ofInt 1, .insert () noIdentifier (note 1 "a")⟩]

/-- Of two observations one is dropped, in vain a second time; others ask for what there is not or
cannot read what there is. -/
def observerCalls : List (Event Unit Row) :=
  written ++ [⟨.ofInt 2, .observe () texts .ok⟩, ⟨.ofInt 3, .observe () texts .ok⟩,
    ⟨.ofInt 4, .drop 0⟩, ⟨.ofInt 5, .drop 0⟩,
    ⟨.ofInt 6, .observe () ⟨[⟨none, .path (.property "author")⟩], [], []⟩ .ok⟩,
    assign 7 "text" (.text "b"), ⟨.ofInt 8, .advance 1 4⟩,
    ⟨.ofInt 9, .observe () texts fun _ => .error (.invalidValue "unreadable")⟩]

/-- The second observation is left, while the log still sends to the one that could not be started.
A log of its own counts one of two subscribers after a clean-up. -/
theorem subscribers_match_notes :
    ((start notebook).run notes observerCalls).store.log.subscriberCount = 2 ∧
      (((start notebook).run notes observerCalls).perform notes
        ⟨.ofInt 10, .countSubscribers⟩).1 = .subscribers 1 ∧
      ((∅ : Log).run [.subscribe, .subscribe, .dropInbox 0]).cleanup.subscriberCount = 1 := by
  have hopen : Store.open? notes [()] .empty = (.ok notebook, notebook.database) := by
    decide +kernel
  have hlive : (start notebook).live notes [] observerCalls = [1] := by decide +kernel
  have hclose : ∀ e ∈ observerCalls, e.call ≠ .close := by
    simp [observerCalls, written, assign]
  obtain ⟨hcount, -, -, hcleanup⟩ :=
    subscribers_match hopen hclose [.subscribe, .subscribe, .dropInbox 0]
  rw [hlive] at hcount
  exact ⟨by decide +kernel, hcount (.ofInt 10), hcleanup⟩

end Session

end LiveQuery
