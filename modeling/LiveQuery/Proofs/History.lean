import LiveQuery.Proofs.Session

/-!
# The log is the history

Whatever is called on a store after it was opened, its log tells what happened to its database: the
actions appended are those that were executed with success, numbered in the order in which they
were executed, and executing them again on the database as it was opened leads to the database as
it is now.  Calls that fail, updates that assign nothing, fetches and observations leave no trace.

The log keeps no entries itself.  What it appends is read off from inboxes: someone who listens
from the beginning and takes nothing holds the whole history.

## Main definitions

* `Session.history`: the actions that some calls execute, with their moments.
* `Database.replay`: executing them one after the other.
* `Store.withListeners`: a store to whose log someone listens.

## Main results

* `Session.replay_history`, `Session.last_run`, `Session.inbox_run`: database, numbering and inboxes
  after any calls.
* `Session.log_is_history`: the log of an opened store is the history of its database.
-/

namespace LiveQuery

/-- Executes actions one after the other, each at its own moment, up to the first that fails. -/
def Database.replay (db : Database) : List (Binary64 × Action) → Except EngineError Database
  | [] => .ok db
  | (moment, a) :: rest =>
    match db.execute moment a with
    | .ok (db', _) => db'.replay rest
    | .error e => .error e

/-- The store with some more subscribers to its log. -/
def Store.withListeners (s : Store) : Nat → Store
  | 0 => s
  | n + 1 => { s.withListeners n with log := (s.withListeners n).log.subscribe.2 }

/-- Whether a call only reads, or is an update that assigns nothing. -/
def Call.isQuiet {ι α : Type} (m : Model ι) : Call ι α → Bool
  | fetch .. => true
  | observe .. => true
  | update root predicate values =>
    (values.updating m root predicate).toOption.any Action.isIdle
  | _ => false

/-- A call that only reads or assigns nothing has no action to execute. -/
theorem Call.action?_of_isQuiet {ι α : Type} {m : Model ι} {c : Call ι α} (h : c.isQuiet m = true) :
    c.action? m = none := by
  cases c with
  | update root predicate values =>
    simp only [Call.isQuiet] at h
    simp only [Call.action?]
    cases hcompile : (values.updating m root predicate).toOption with
    | none => rfl
    | some a =>
      have hidle : a.isIdle = true := by simpa [hcompile] using h
      simp [hidle]
  | fetch root request decode => rfl
  | observe root request decode => rfl
  | insert root fresh values => cases h
  | delete root predicate => cases h
  | advance i count => cases h
  | drop i => cases h
  | countSubscribers => cases h
  | close => cases h

namespace Session

variable {ι α : Type} [DecidableEq α]

/-- The actions that some calls execute, with their moments. -/
def history (m : Model ι) (x : Session α) : List (Event ι α) → List (Binary64 × Action)
  | [] => []
  | e :: rest =>
    (e.executed? m (x.perform m e).1).toList ++ (x.perform m e).2.history m rest

variable {m : Model ι} {x : Session α}

/-! ### Any calls -/

/-- Executing the history again leads to the same database. -/
theorem replay_history (es : List (Event ι α)) :
    x.database.replay (x.history m es) = .ok (x.run m es).database := by
  induction es generalizing x with
  | nil => rfl
  | cons e es ih =>
    rw [history, run]
    rcases (move_perform m x e).database with
      ⟨a, effect, hexecuted, -, hexecute, -⟩ | ⟨hexecuted, hdb, -⟩
    · rw [hexecuted, Option.toList_some, List.singleton_append, Database.replay, hexecute]
      exact ih
    · rw [hexecuted, Option.toList_none, List.nil_append, ← hdb]
      exact ih

theorem last_perform (e : Event ι α) :
    (x.perform m e).2.store.log.last =
      x.store.log.last + (e.executed? m (x.perform m e).1).toList.length := by
  rcases (move_perform m x e).database with ⟨a, effect, hexecuted, -, -, hlast⟩ |
    ⟨hexecuted, -, hlast⟩
  · rw [hlast, hexecuted]
    rfl
  · rw [hlast, hexecuted]
    rfl

/-- The number of the last action grows with the history. -/
theorem last_run (es : List (Event ι α)) :
    (x.run m es).store.log.last = x.store.log.last + (x.history m es).length := by
  induction es generalizing x with
  | nil => rfl
  | cons e es ih => rw [run, ih, last_perform, history, List.length_append, Nat.add_assoc]

/-- Whoever is no observation is none afterwards either: new ones get new inboxes. -/
theorem ne_subscriber_perform (h : x.Linked) {id : Nat}
    (hheld : x.store.log.inboxes.contains id = true)
    (hother : ∀ (i : Nat) (o : Observation α), x.observations[i]? = some (some o) →
      id ≠ o.subscriber) (e : Event ι α) (i : Nat) (o : Observation α)
    (ho : (x.perform m e).2.observations[i]? = some (some o)) : id ≠ o.subscriber := by
  rcases (move_perform m x e).observations ho with ⟨o₀, ho₀, hsame⟩ | ⟨hopen, hnew⟩
  · rw [hsame.subscriber]
    exact hother i o₀ ho₀
  · rw [hnew]
    exact Nat.ne_of_lt ((h.wired hopen).fresh id hheld)

/-- Whoever listens without taking anything holds the history. -/
theorem inbox_run (h : x.Linked) {id : Nat} {queue : List Entry}
    (hid : x.store.log.inboxes.get? id = some queue)
    (hother : ∀ (i : Nat) (o : Observation α), x.observations[i]? = some (some o) →
      id ≠ o.subscriber) (es : List (Event ι α)) :
    (x.run m es).store.log.inboxes.get? id =
      some (queue ++ Entry.numbered (x.store.log.last + 1) ((x.history m es).map (·.2))) := by
  induction es generalizing x queue with
  | nil => exact hid.trans (congrArg some (List.append_nil queue).symm)
  | cons e es ih =>
    have hinbox := (move_perform m x e).inbox h hid fun i o _ ho => hother i o ho
    have hheld : x.store.log.inboxes.contains id = true := by simp [SortedMap.contains, hid]
    have hrest := ih (linked_perform m h e) hinbox (ne_subscriber_perform h hheld hother e)
    rw [run, hrest, history, last_perform, List.map_append, Entry.numbered_append,
      List.length_map, List.append_assoc, Nat.add_right_comm]

/-- Calls that fail, that only read or that assign nothing leave no trace. -/
theorem perform_quiet {e : Event ι α}
    (h : (∃ error, (x.perform m e).1 = .failed error) ∨ e.call.isQuiet m = true) :
    (x.perform m e).2.database = x.database ∧
      (x.perform m e).2.store.lastSequence = x.store.lastSequence := by
  rcases (move_perform m x e).database with ⟨a, effect, hexecuted, -, -, -⟩ | ⟨-, hdb, hlast⟩
  · exfalso
    rcases h with ⟨error, herror⟩ | hquiet
    · rw [herror] at hexecuted
      cases hexecuted
    · unfold Event.executed? at hexecuted
      rw [Call.action?_of_isQuiet hquiet] at hexecuted
      split at hexecuted <;> cases hexecuted
  · exact ⟨hdb, hlast⟩

/-! ### Opened stores -/

omit [DecidableEq α] in
/-- Listeners change nothing but the inboxes, in which nothing waits yet. -/
theorem withListeners_spec {s : Store} (hs : s.log = ∅) (n : Nat) :
    (s.withListeners n).database = s.database ∧ (s.withListeners n).log.last = 0 ∧
      (s.withListeners n).log.Wired ∧ (s.withListeners n).log.nextSubscriber = n ∧
      ∀ id < n, (s.withListeners n).log.inboxes.get? id = some [] := by
  induction n with
  | zero =>
    rw [Store.withListeners, hs]
    exact ⟨rfl, rfl, Log.wired_empty, rfl, fun id hid => absurd hid (Nat.not_lt_zero id)⟩
  | succ n ih =>
    obtain ⟨hdb, hlast, hwired, hnext, hinboxes⟩ := ih
    refine ⟨hdb, hlast, hwired.subscribe, congrArg (· + 1) hnext, fun id hid => ?_⟩
    rcases Nat.lt_succ_iff_lt_or_eq.mp hid with hid | rfl
    · exact hwired.get?_subscribe (hinboxes id hid)
    · have hself := Log.get?_subscribe_self (s.withListeners id).log
      rwa [show (s.withListeners id).log.subscribe.1 = id from hnext] at hself

omit [DecidableEq α] in
theorem open?_eq_ok {entities : List ι} {db opened : Database} {s : Store}
    (h : Store.open? m entities db = (.ok s, opened)) : s = ⟨opened, ∅⟩ := by
  unfold Store.open? at h
  split at h
  next =>
    obtain ⟨hs, rfl⟩ := Prod.mk.inj h
    exact (Except.ok.inj hs).symm
  next => cases (Prod.mk.inj h).1

/-- **The log is the history.**  After any calls on an opened store, executing the appended actions
in their order, each at its own moment, on the database as it was opened leads to the database as
it is; the last number is the number of actions executed; whoever listened from the beginning was
sent these actions, numbered from one; and a further call that fails, that only reads or that
assigns nothing leaves the database and the last number as they are. -/
theorem log_is_history {entities : List ι} {db opened : Database} {s : Store}
    (hopen : Store.open? m entities db = (.ok s, opened)) (listeners : Nat)
    (es : List (Event ι α)) :
    let x : Session α := start (s.withListeners listeners)
    opened.replay (x.history m es) = .ok (x.run m es).database ∧
      (x.run m es).store.lastSequence = (x.history m es).length ∧
      (∀ id < listeners, (x.run m es).store.log.inbox id =
        Entry.numbered 1 ((x.history m es).map (·.2))) ∧
      ∀ e : Event ι α, (∃ error, ((x.run m es).perform m e).1 = .failed error) ∨
          e.call.isQuiet m = true →
        ((x.run m es).perform m e).2.database = (x.run m es).database ∧
          ((x.run m es).perform m e).2.store.lastSequence = (x.run m es).store.lastSequence := by
  intro x
  obtain rfl := open?_eq_ok hopen
  obtain ⟨hdb, hlast, hwired, -, hinboxes⟩ := withListeners_spec (s := ⟨opened, ∅⟩) rfl listeners
  have hreplay := x.replay_history (m := m) es
  have hnumber := x.last_run (m := m) es
  have hstart : x.database = opened := hdb
  have hzero : x.store.log.last = 0 := hlast
  rw [hstart] at hreplay
  rw [hzero, Nat.zero_add] at hnumber
  refine ⟨hreplay, hnumber, fun id hid => ?_, fun e he => perform_quiet he⟩
  have hinbox := inbox_run (m := m) (x := x) (linked_start hwired) (hinboxes id hid) nofun es
  rw [Log.inbox, hinbox, hzero]
  rfl

/-- A kind of data to keep in a store: numbered notes. -/
def notes : Model Unit := fun _ => ⟨"Note", "id", [.value "id" .integer, .value "text" .text]⟩

/-- The values of a note. -/
def note (id : Int64) (text : String) : ValueSet :=
  .ofChanges notes () [.assign (.property "id") (.literal (.integer id)),
    .assign (.property "text") (.literal (.text text))]

/-- Notes have no use for fresh identifiers. -/
def noIdentifier : String → Uuid := fun _ => ⟨List.replicate 16 0, rfl⟩

/-- A note is written, its number is used again in vain, an update assigns nothing, and the notes
are removed. -/
def noteCalls : List (Event Unit Unit) :=
  [⟨.ofInt 1, .insert () noIdentifier (note 1 "a")⟩,
    ⟨.ofInt 2, .insert () noIdentifier (note 1 "b")⟩,
    ⟨.ofInt 3, .update () none ∅⟩,
    ⟨.ofInt 4, .delete () none⟩]

/-- The actions of these calls that are executed. -/
def noteActions : List (Binary64 × Action) :=
  [(.ofInt 1, .insert "Note" (.ofList [("id", .value (.integer 1)),
      ("text", .value (.text "a"))])),
    (.ofInt 4, .delete "Note" none)]

/-- Two of four calls on an opened store are its history. -/
theorem log_is_history_notes :
    ∃ s opened, Store.open? notes [()] .empty = (.ok s, opened) ∧
      opened.replay noteActions =
        .ok ((start (s.withListeners 1)).run notes noteCalls).database ∧
      ((start (s.withListeners 1)).run notes noteCalls).store.lastSequence = 2 ∧
      ((start (s.withListeners 1)).run notes noteCalls).store.log.inbox 0 =
        Entry.numbered 1 (noteActions.map (·.2)) := by
  let opened := (Store.open? notes [()] .empty).2
  have hopen : Store.open? notes [()] .empty = (.ok ⟨opened, ∅⟩, opened) := by decide +kernel
  have hactions : (start (Store.withListeners ⟨opened, ∅⟩ 1)).history notes noteCalls =
      noteActions := by decide +kernel
  have hall := log_is_history hopen 1 noteCalls
  simp only [hactions] at hall
  obtain ⟨hreplay, hlast, hinbox, -⟩ := hall
  exact ⟨_, _, hopen, hreplay, hlast, hinbox 0 Nat.one_pos⟩

end Session

end LiveQuery
