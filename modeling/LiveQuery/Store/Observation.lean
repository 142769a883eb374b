import LiveQuery.Store.Basic

/-!
# Observations

An observation delivers the results of a request and then, whenever applied actions change them,
the new results.  It subscribes to the log and takes its first results in one step, so it misses
no action.  Actions that wait together are answered by a single fetch, and equal results are not
delivered twice in a row.  It ends when the store is closed.

An observation runs in small steps between which other calls may come: waiting actions are taken
from the inbox in one step, and the results are fetched in a later one.

## Main definitions

* `Observation`: the state of an observation.
* `Store.observe`: starting one.
* `Observation.step`: one small step, with `Delivery` for what it brings.
* `Observation.poll`: steps until there is something to say.
-/

namespace LiveQuery

/-- Where an observation stands. -/
inductive Phase where
  /-- The first results are not delivered yet. -/
  | fresh
  /-- Nothing is to be done until actions arrive. -/
  | waiting
  /-- Actions have arrived that may have changed the results. -/
  | stale
  /-- The store was closed. -/
  | ended
deriving DecidableEq, Repr

/-- The state of an observation with results of a type. -/
structure Observation (α : Type) where
  /-- The observed query. -/
  query : Query
  /-- How result rows are read. -/
  decode : Row → Except DecodeError α
  /-- The subscription to the log. -/
  subscriber : Nat
  /-- The last results fetched. -/
  last : List α
  /-- Where the observation stands. -/
  phase : Phase

/-- What a step of an observation brings. -/
inductive Delivery (α : Type) where
  /-- Nothing yet: there is a further step to take. -/
  | silent
  /-- Nothing until actions arrive. -/
  | pending
  /-- Nothing any more. -/
  | ended
  /-- New results. -/
  | results (rows : List α)
  /-- The results could not be fetched. -/
  | failed (error : StoreError)
deriving DecidableEq

/-- Starts an observation: subscribes, and takes the first results.  If they cannot be taken, the
subscription is dropped again. -/
def Store.observe {ι α : Type} (m : Model ι) (root : ι) (s : Store) (moment : Binary64)
    (r : Request) (decode : Row → Except DecodeError α) :
    Except StoreError (Observation α) × Store :=
  match r.compile m root with
  | .error e => (.error (.compile e), s)
  | .ok q =>
    let (id, log) := s.log.subscribe
    match Store.results s.database moment q decode with
    | .ok rows => (.ok ⟨q, decode, id, rows, .fresh⟩, { s with log })
    | .error e => (.error e, { s with log := log.dropInbox id })

namespace Observation

variable {α : Type} [DecidableEq α]

/-- Looks for waiting actions and takes all of them.  They matter if one of them affects the
query. -/
def takeActions (o : Observation α) (s : Store) : Delivery α × Observation α × Store :=
  match s.log.inbox o.subscriber with
  | [] => if s.isOpen then (.pending, o, s) else (.ended, { o with phase := .ended }, s)
  | entries =>
    let (_, log) := s.log.drain o.subscriber
    let affected := entries.any fun entry => o.query.isAffectedBy entry.action
    (.silent, { o with phase := if affected then .stale else .waiting }, { s with log })

/-- Fetches the results anew and delivers them if they differ from the last ones.  Taking a handle
to the store, the query and the delivery are one step: the last other handle may be dropped before
it or after it, and a drop that comes while the observation holds its own counts as after it. -/
def refetch (moment : Binary64) (o : Observation α) (s : Store) :
    Delivery α × Observation α × Store :=
  if s.isOpen then
    match Store.results s.database moment o.query o.decode with
    | .ok rows =>
      if rows = o.last then (.silent, { o with phase := .waiting }, s)
      else (.results rows, { o with last := rows, phase := .waiting }, s)
    | .error e => (.failed e, { o with phase := .waiting }, s)
  else (.ended, { o with phase := .ended }, s)

/-- One small step. -/
def step (moment : Binary64) (o : Observation α) (s : Store) : Delivery α × Observation α × Store :=
  match o.phase with
  | .fresh => (.results o.last, { o with phase := .waiting }, s)
  | .waiting => o.takeActions s
  | .stale => o.refetch moment s
  | .ended => (.ended, o, s)

/-- Takes up to so many steps while they bring nothing. -/
def steps (moment : Binary64) : Nat → Observation α → Store → Delivery α × Observation α × Store
  | 0, o, s => (.silent, o, s)
  | n + 1, o, s =>
    match o.step moment s with
    | (.silent, o, s) => steps moment n o s
    | result => result

/-- Steps until there is something to say.  With no other calls in between, a fetch may be due,
then actions may wait that make another one due, and then the inbox is empty: four steps are
enough. -/
def poll (moment : Binary64) (o : Observation α) (s : Store) : Delivery α × Observation α × Store :=
  steps moment 4 o s

end Observation

/-- Drops an observation, and with it its subscription. -/
def Store.dropObservation {α : Type} (s : Store) (o : Observation α) : Store :=
  { s with log := s.log.dropInbox o.subscriber }

end LiveQuery
