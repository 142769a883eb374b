import LiveQuery.Store.Log
import Mathlib.Data.List.Basic

/-!
# Fan-out of the action log

What subscribers see of a log, over any sequence of operations by its owner and by any number of
subscribers.  A subscriber that has not dropped its inbox has received, together with what still
waits for it, exactly the entries appended since it subscribed.

## The invariant that carries it

The log cannot see whether an inbox is still held until it sends, so its list of sending ends may
be too long.  What matters is that it is never too short: whoever holds an inbox is sent to
(`Wired.sends`).  Pruning keeps this because it asks for the inbox, and subscribing keeps it because
the new number was never given out before (`Wired.fresh`).

## Main definitions

* `Log.Op`, `Log.perform`, `Log.run`: operations on a log and their replies.
* `Log.Wired`: whoever holds an inbox is sent to.
* `Log.received`: the entries that a subscriber has taken.

## Main results

* `Log.wired_perform`, `Log.wired_run`: the invariant is kept.
* `Log.inbox_perform`, `Log.inbox_run`: what happens to one inbox.
* `Log.fan_out_exact`: appends are numbered without gaps, and every subscriber sees exactly the
  entries appended after it subscribed.
-/

namespace LiveQuery

/-- Some actions as entries with consecutive numbers. -/
def Entry.numbered (n : Nat) : List Action → List Entry
  | [] => []
  | a :: rest => ⟨n, a⟩ :: numbered (n + 1) rest

theorem Entry.numbered_append (n : Nat) (as bs : List Action) :
    numbered n (as ++ bs) = numbered n as ++ numbered (n + as.length) bs := by
  induction as generalizing n with
  | nil => rfl
  | cons a as ih => simp [numbered, ih, Nat.add_assoc, Nat.add_comm 1]

namespace Log

/-! ### Operations -/

/-- An operation on a log, by its owner or by a subscriber. -/
inductive Op where
  | append (a : Action)
  | subscribe
  | cleanup
  | dropInbox (id : Nat)
  | receive (id : Nat)
deriving DecidableEq

/-- What an operation gives back. -/
inductive Reply where
  /-- The number of the appended action. -/
  | number (n : Nat)
  /-- The new subscriber. -/
  | subscriber (id : Nat)
  /-- The entry taken from an inbox, if there was one. -/
  | entry (e? : Option Entry)
  | done
deriving DecidableEq

/-- Performs an operation. -/
def perform (log : Log) : Op → Reply × Log
  | .append a => (.number (log.append a).last, log.append a)
  | .subscribe => (.subscriber log.subscribe.1, log.subscribe.2)
  | .cleanup => (.done, log.cleanup)
  | .dropInbox id => (.done, log.dropInbox id)
  | .receive id => (.entry (log.receive id).1, (log.receive id).2)

/-- The log after some operations. -/
def run (log : Log) : List Op → Log
  | [] => log
  | op :: rest => (log.perform op).2.run rest

/-- Some operations with the replies to them. -/
def replies (log : Log) : List Op → List (Op × Reply)
  | [] => []
  | op :: rest => (op, (log.perform op).1) :: (log.perform op).2.replies rest

/-- The action that an operation appends. -/
def Op.action? : Op → Option Action
  | append a => some a
  | _ => none

/-- The actions appended by some operations, in their order. -/
def appended (ops : List Op) : List Action := ops.filterMap Op.action?

/-- The numbers given to appended actions. -/
def numbers (replies : List (Op × Reply)) : List Nat :=
  replies.filterMap fun
    | (_, .number n) => some n
    | _ => none

/-- The entries that a subscriber has taken from its inbox, in their order. -/
def received (id : Nat) (replies : List (Op × Reply)) : List Entry :=
  replies.filterMap fun
    | (.receive id', .entry e?) => if id' = id then e? else none
    | _ => none

theorem received_cons (id : Nat) (r : Op × Reply) (rest : List (Op × Reply)) :
    received id (r :: rest) = received id [r] ++ received id rest := by
  rw [received, received, received, ← List.filterMap_append, List.singleton_append]

theorem appended_cons (op : Op) (ops : List Op) :
    appended (op :: ops) = appended [op] ++ appended ops := by
  rw [appended, appended, appended, ← List.filterMap_append, List.singleton_append]

/-! ### Numbering -/

theorem last_perform (log : Log) (op : Op) :
    (log.perform op).2.last = log.last + (appended [op]).length := by
  cases op with
  | append a => rfl
  | subscribe => rfl
  | cleanup => rfl
  | dropInbox id => rfl
  | receive id =>
    change (log.receive id).2.last = _
    unfold receive
    split <;> rfl

theorem last_run (log : Log) (ops : List Op) :
    (log.run ops).last = log.last + (appended ops).length := by
  induction ops generalizing log with
  | nil => rfl
  | cons op ops ih =>
    rw [run, ih, last_perform, appended_cons op ops, List.length_append, Nat.add_assoc]

/-- Appended actions get consecutive numbers, whatever happens between. -/
theorem numbers_replies (log : Log) (ops : List Op) :
    numbers (log.replies ops) = List.range' (log.last + 1) (appended ops).length := by
  induction ops generalizing log with
  | nil => rfl
  | cons op ops ih =>
    have hrest := ih (log.perform op).2
    rw [last_perform] at hrest
    cases op with
    | append a =>
      change (log.last + 1) :: numbers _ = _
      rw [hrest]
      rfl
    | subscribe => exact hrest
    | cleanup => exact hrest
    | dropInbox id => exact hrest
    | receive id => exact hrest

/-! ### The invariant -/

/-- Whoever holds an inbox is sent to, and the next subscriber is a new one. -/
structure Wired (log : Log) : Prop where
  /-- The log sends to everyone who holds an inbox. -/
  sends : ∀ id, log.inboxes.contains id = true → id ∈ log.senders
  /-- No inbox is held under a number still to be given out. -/
  fresh : ∀ id, log.inboxes.contains id = true → id < log.nextSubscriber

theorem wired_empty : Wired ∅ := by
  constructor <;> exact fun id h => by cases h

theorem Wired.cleanup {log : Log} (h : log.Wired) : log.cleanup.Wired where
  sends id hid := List.mem_filter.mpr ⟨h.sends id hid, hid⟩
  fresh := h.fresh

theorem Wired.append {log : Log} (h : log.Wired) (a : Action) : (log.append a).Wired := by
  have hold : ∀ id, (log.append a).inboxes.contains id = log.inboxes.contains id := by
    intro id
    simp [Log.append, SortedMap.contains]
  refine ⟨fun id hid => ?_, fun id hid => ?_⟩
  · rw [hold] at hid
    exact List.mem_filter.mpr ⟨h.sends id hid, hid⟩
  · rw [hold] at hid
    exact h.fresh id hid

theorem Wired.subscribe {log : Log} (h : log.Wired) : log.subscribe.2.Wired := by
  have hold : ∀ id, log.subscribe.2.inboxes.contains id = true →
      id = log.nextSubscriber ∨ log.inboxes.contains id = true := by
    intro id hid
    by_cases hn : id = log.nextSubscriber
    · exact Or.inl hn
    · exact Or.inr (by simpa [Log.subscribe, Log.cleanup, SortedMap.contains, hn] using hid)
  refine ⟨fun id hid => ?_, fun id hid => ?_⟩
  · rcases hold id hid with rfl | hid
    · exact List.mem_append_right _ List.mem_cons_self
    · exact List.mem_append_left _ (h.cleanup.sends id hid)
  · rcases hold id hid with rfl | hid
    · exact Nat.lt_succ_self _
    · exact Nat.lt_succ_of_lt (h.fresh id hid)

/-- Changes that keep the sending ends and hand out no new inbox keep the invariant. -/
theorem Wired.of_subset {log log' : Log} (h : log.Wired) (hs : log'.senders = log.senders)
    (hn : log'.nextSubscriber = log.nextSubscriber)
    (hi : ∀ id, log'.inboxes.contains id = true → log.inboxes.contains id = true) : log'.Wired where
  sends id hid := hs ▸ h.sends id (hi id hid)
  fresh id hid := hn ▸ h.fresh id (hi id hid)

theorem Wired.dropInbox {log : Log} (h : log.Wired) (id : Nat) : (log.dropInbox id).Wired := by
  refine h.of_subset rfl rfl fun id' hid => ?_
  by_cases hne : id' = id
  · simp [Log.dropInbox, SortedMap.contains, hne] at hid
  · simpa [Log.dropInbox, SortedMap.contains, hne] using hid

/-- Replacing what waits in an inbox that is held keeps the invariant. -/
theorem Wired.refill {log : Log} (h : log.Wired) {id : Nat} {queue : List Entry}
    (hid : log.inboxes.get? id = some queue) (rest : List Entry) :
    Wired { log with inboxes := log.inboxes.insert id rest } := by
  refine h.of_subset rfl rfl fun id' hid' => ?_
  by_cases hne : id' = id
  · simp [SortedMap.contains, hne, hid]
  · simpa [SortedMap.contains, hne] using hid'

theorem Wired.receive {log : Log} (h : log.Wired) (id : Nat) : (log.receive id).2.Wired := by
  unfold Log.receive
  split
  next entry rest hid => exact h.refill hid rest
  next => exact h

theorem wired_perform {log : Log} (h : log.Wired) (op : Op) : (log.perform op).2.Wired := by
  cases op with
  | append a => exact h.append a
  | subscribe => exact h.subscribe
  | cleanup => exact h.cleanup
  | dropInbox id => exact h.dropInbox id
  | receive id => exact h.receive id

theorem wired_run {log : Log} (h : log.Wired) (ops : List Op) : (log.run ops).Wired := by
  induction ops generalizing log with
  | nil => exact h
  | cons op ops ih => exact ih (wired_perform h op)

/-! ### One inbox -/

/-- Appending puts the new entry behind what waits in every inbox that is held. -/
theorem Wired.get?_append {log : Log} (h : log.Wired) {id : Nat} {queue : List Entry}
    (hid : log.inboxes.get? id = some queue) (a : Action) :
    (log.append a).inboxes.get? id = some (queue ++ [⟨log.last + 1, a⟩]) := by
  have hmem : id ∈ log.senders := h.sends id (by simp [SortedMap.contains, hid])
  simp [Log.append, hid, hmem]

/-- Another subscriber gets an inbox of its own. -/
theorem Wired.get?_subscribe {log : Log} (h : log.Wired) {id : Nat} {queue : List Entry}
    (hid : log.inboxes.get? id = some queue) :
    log.subscribe.2.inboxes.get? id = some queue := by
  have hlt : id < log.nextSubscriber := h.fresh id (by simp [SortedMap.contains, hid])
  have hne : id ≠ log.nextSubscriber := Nat.ne_of_lt hlt
  simp [Log.subscribe, Log.cleanup, hne, hid]

theorem get?_subscribe_self (log : Log) :
    log.subscribe.2.inboxes.get? log.subscribe.1 = some [] := by
  simp [subscribe]

theorem get?_dropInbox {log : Log} {id id' : Nat} (h : id ≠ id') :
    (log.dropInbox id').inboxes.get? id = log.inboxes.get? id := by
  simp [dropInbox, h]

/-- Taking from another inbox changes nothing. -/
theorem get?_receive {log : Log} {id id' : Nat} (h : id ≠ id') :
    (log.receive id').2.inboxes.get? id = log.inboxes.get? id := by
  unfold receive
  split
  · simp [h]
  · rfl

/-- **One operation, one inbox.**  Unless the operation drops the inbox, what the subscriber takes
by it and what then waits are what waited before and the entry that the operation appends. -/
theorem inbox_perform {log : Log} (h : log.Wired) {id : Nat} {queue : List Entry}
    (hid : log.inboxes.get? id = some queue) {op : Op} (hop : op ≠ .dropInbox id) :
    ∃ queue', (log.perform op).2.inboxes.get? id = some queue' ∧
      received id [(op, (log.perform op).1)] ++ queue' =
        queue ++ Entry.numbered (log.last + 1) (appended [op]) := by
  cases op with
  | append a => exact ⟨_, h.get?_append hid a, rfl⟩
  | subscribe => exact ⟨queue, h.get?_subscribe hid, (List.append_nil queue).symm⟩
  | cleanup => exact ⟨queue, hid, (List.append_nil queue).symm⟩
  | dropInbox id' =>
    have hne : id ≠ id' := fun he => hop (he ▸ rfl)
    exact ⟨queue, (get?_dropInbox hne).trans hid, (List.append_nil queue).symm⟩
  | receive id' =>
    change ∃ queue', (log.receive id').2.inboxes.get? id = some queue' ∧
      received id [(.receive id', .entry (log.receive id').1)] ++ queue' = queue ++ []
    by_cases hne : id = id'
    · subst hne
      cases queue with
      | nil => exact ⟨[], by simp [receive, hid], by simp [receive, hid, received]⟩
      | cons entry rest => exact ⟨rest, by simp [receive, hid], by simp [receive, hid, received]⟩
    · refine ⟨queue, (get?_receive hne).trans hid, ?_⟩
      simp [received, Ne.symm hne]

/-- **Any operations, one inbox.**  The induction is on the operations, from the front: what waits
after the first one is what the remaining ones start from. -/
theorem inbox_run {log : Log} (h : log.Wired) {id : Nat} {queue : List Entry}
    (hid : log.inboxes.get? id = some queue) {ops : List Op} (hops : Op.dropInbox id ∉ ops) :
    ∃ queue', (log.run ops).inboxes.get? id = some queue' ∧
      received id (log.replies ops) ++ queue' =
        queue ++ Entry.numbered (log.last + 1) (appended ops) := by
  induction ops generalizing log queue with
  | nil => exact ⟨queue, hid, (List.append_nil queue).symm⟩
  | cons op ops ih =>
    obtain ⟨hop, hrest⟩ := not_or.mp (mt List.mem_cons.mpr hops)
    obtain ⟨queue₁, hid₁, heq₁⟩ := inbox_perform h hid (Ne.symm hop)
    obtain ⟨queue₂, hid₂, heq₂⟩ := ih (wired_perform h op) hid₁ hrest
    refine ⟨queue₂, hid₂, ?_⟩
    calc received id (log.replies (op :: ops)) ++ queue₂
        = received id [(op, (log.perform op).1)] ++
            (received id ((log.perform op).2.replies ops) ++ queue₂) := by
          rw [replies, received_cons, List.append_assoc]
      _ = queue ++ Entry.numbered (log.last + 1) (appended [op]) ++
            Entry.numbered ((log.perform op).2.last + 1) (appended ops) := by
          rw [heq₂, ← List.append_assoc, heq₁]
      _ = queue ++ Entry.numbered (log.last + 1) (appended (op :: ops)) := by
          rw [appended_cons op ops, Entry.numbered_append, last_perform, List.append_assoc,
            Nat.add_right_comm]

/-! ### Exact fan-out -/

/-- **Exact fan-out.**  Over any operations on a new log, appended actions are numbered from one
without gaps.  A subscriber that has not dropped its inbox has received, and then still finds
waiting, the actions appended since it subscribed, each once, in their order, and with consecutive
numbers.  The entries are given by the appended actions alone, so the other subscribers make no
difference. -/
theorem fan_out_exact (before after : List Op) (id : Nat) (log : Log)
    (hsubscribe : ((∅ : Log).run before).perform .subscribe = (.subscriber id, log))
    (hheld : Op.dropInbox id ∉ after) :
    numbers ((∅ : Log).replies (before ++ .subscribe :: after)) =
        List.range' 1 (appended (before ++ .subscribe :: after)).length ∧
      ∃ queue, (log.run after).inboxes.get? id = some queue ∧
        received id (log.replies after) ++ queue =
          Entry.numbered ((appended before).length + 1) (appended after) := by
  refine ⟨numbers_replies ∅ _, ?_⟩
  have hwired : ((∅ : Log).run before).Wired := wired_run wired_empty before
  obtain ⟨hid, hlog⟩ := Prod.mk.inj hsubscribe
  obtain rfl := Reply.subscriber.inj hid
  obtain rfl := hlog
  have hlast : ((∅ : Log).run before).subscribe.2.last = (appended before).length :=
    (last_run ∅ before).trans (Nat.zero_add _)
  have hrun := inbox_run hwired.subscribe (get?_subscribe_self _) hheld
  rw [hlast] at hrun
  exact hrun

/-- A second subscriber comes and goes while the first one reads. -/
theorem fan_out_exact_beside_another :
    let ops : List Op := [.append (.delete "Book" none), .subscribe, .receive 0, .dropInbox 1,
      .append (.delete "Author" none)]
    Op.dropInbox 0 ∉ ops ∧
      numbers ((∅ : Log).replies ([.append (.delete "City" none)] ++ .subscribe :: ops)) =
        [1, 2, 3] ∧
      ∃ queue, (((∅ : Log).append (.delete "City" none)).subscribe.2.run ops).inboxes.get? 0 =
          some queue ∧
        received 0 (((∅ : Log).append (.delete "City" none)).subscribe.2.replies ops) ++ queue =
          [⟨2, .delete "Book" none⟩, ⟨3, .delete "Author" none⟩] :=
  ⟨by decide, fan_out_exact [.append (.delete "City" none)] _ 0 _ rfl (by decide)⟩

end Log

end LiveQuery
