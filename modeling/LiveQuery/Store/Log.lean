import LiveQuery.Sorted.Map
import LiveQuery.Statement.Action

/-!
# The action log

Every action that was applied is appended to the log and sent to the subscribers.  The log keeps
no history: a subscriber sees the actions appended after it subscribed, each once and in order.

A subscriber holds an inbox, and the log holds the sending end.  When a subscriber drops its
inbox, the log learns of it only when it next sends or cleans up; until then it still counts the
subscriber.

## Main definitions

* `Entry`: an appended action with its number.
* `Log`: the numbering, the sending ends, and the inboxes.
* `Log.append`, `Log.subscribe`, `Log.dropInbox`, `Log.cleanup`, `Log.receive`, `Log.close`.
-/

namespace LiveQuery

/-- An applied action with its number in the log. -/
structure Entry where
  /-- The number, counted from one. -/
  sequence : Nat
  /-- The action. -/
  action : Action
deriving DecidableEq

/-- An action log with its subscribers. -/
structure Log where
  /-- The number of the last appended action, zero if there is none. -/
  last : Nat
  /-- The subscribers that the log still sends to, in the order in which they subscribed. -/
  senders : List Nat
  /-- The inboxes that are still held, oldest entry first, by subscriber. -/
  inboxes : SortedMap Nat (List Entry)
  /-- The number of the next subscriber. -/
  nextSubscriber : Nat
  /-- Whether the log can still append.  A closed log has no sending end. -/
  isOpen : Bool
deriving DecidableEq

namespace Log

/-- The log without actions and subscribers. -/
def empty : Log := ⟨0, [], .empty, 0, true⟩

instance : EmptyCollection Log := ⟨empty⟩

/-- Forgets the subscribers that have dropped their inboxes. -/
def cleanup (log : Log) : Log := { log with senders := log.senders.filter log.inboxes.contains }

/-- Appends an action and sends it to every subscriber, forgetting those that have dropped their
inboxes. -/
def append (log : Log) (a : Action) : Log :=
  let entry : Entry := ⟨log.last + 1, a⟩
  { log with
    last := log.last + 1
    senders := log.senders.filter log.inboxes.contains
    inboxes := log.inboxes.map fun id inbox =>
      if log.senders.contains id then inbox ++ [entry] else inbox }

/-- Adds a subscriber with an empty inbox, after a clean-up. -/
def subscribe (log : Log) : Nat × Log :=
  let log := log.cleanup
  (log.nextSubscriber,
    { log with
      senders := log.senders ++ [log.nextSubscriber]
      inboxes := log.inboxes.insert log.nextSubscriber []
      nextSubscriber := log.nextSubscriber + 1 })

/-- Drops the inbox of a subscriber. -/
def dropInbox (log : Log) (id : Nat) : Log := { log with inboxes := log.inboxes.erase id }

/-- How many subscribers the log sends to, those included that it does not know to be gone. -/
def subscriberCount (log : Log) : Nat := log.senders.length

/-- The entries that wait for a subscriber. -/
def inbox (log : Log) (id : Nat) : List Entry := (log.inboxes.get? id).getD []

/-- Takes the oldest entry that waits for a subscriber. -/
def receive (log : Log) (id : Nat) : Option Entry × Log :=
  match log.inboxes.get? id with
  | some (entry :: rest) => (some entry, { log with inboxes := log.inboxes.insert id rest })
  | _ => (none, log)

/-- Takes all entries that wait for a subscriber. -/
def drain (log : Log) (id : Nat) : List Entry × Log :=
  match log.inboxes.get? id with
  | some entries => (entries, { log with inboxes := log.inboxes.insert id [] })
  | none => ([], log)

/-- Closes the log.  Entries that wait can still be received. -/
def close (log : Log) : Log := { log with senders := [], isOpen := false }

end Log

end LiveQuery
