import LiveQuery.Engine.Execute
import LiveQuery.Engine.Select
import LiveQuery.Model.Row
import LiveQuery.Model.ValueSet
import LiveQuery.Store.Log

/-!
# Stores

A store is a database with its action log.  Every action that succeeds is appended to the log
before anything else happens to the database, so the log holds the history of the database.

Functions that may fail give the store as it is afterwards in any case; a failed call leaves the
database and the numbering of the log as they were.

## Main definitions

* `StoreError`, `OpenError`: what can go wrong, with messages.
* `Store`: the type.
* `Store.ensureTables`, `Store.open?`: opening a database for some entities.
* `Store.insert`, `Store.update`, `Store.delete`: changes.
* `Store.fetch`: reading once.
* `Store.close`, `Store.subscriberCount`.
-/

namespace LiveQuery

/-! ### Errors -/

/-- Why a call fails. -/
inductive StoreError where
  | compile (error : CompileError)
  /-- An insertion leaves required properties open. -/
  | insufficientInsert (table : String) (missing : List String)
  | storage (error : EngineError)
  | decode (error : DecodeError)
deriving DecidableEq

/-- The message of an error. -/
def StoreError.message : StoreError → String
  | compile error => s!"Compile error: {error.message}"
  | insufficientInsert table missing =>
    s!"Insert into {table} is missing required properties: {inspect missing}"
  | storage error => s!"Storage engine error: {error.message}"
  | decode error => s!"Decode error: {error.message}"

/-- Why a database cannot be opened. -/
inductive OpenError where
  /-- A table exists with another schema than declared. -/
  | incompatibleSchema (found : TableInfo) (declared : Schema)
  | compile (error : CompileError)
  | storage (error : EngineError)
deriving DecidableEq

/-- The message of an error. -/
def OpenError.message : OpenError → String
  | incompatibleSchema found declared =>
    s!"Table {declared.table} exists with an incompatible structure: found {inspect found}, " ++
      s!"declared {inspect declared}"
  | compile error => s!"Invalid model: {error.message}"
  | storage error => s!"Storage engine error: {error.message}"

/-! ### Stores -/

/-- An open database with its action log. -/
structure Store where
  /-- The database. -/
  database : Database
  /-- The log of the applied actions. -/
  log : Log
deriving DecidableEq

namespace Store

variable {ι α : Type}

/-- Whether some handle to the store is left. -/
def isOpen (s : Store) : Bool := s.log.isOpen

/-! ### Opening and closing -/

/-- Makes sure that the table of an entity exists: creates it, or checks that it has the schema
of the entity. -/
def ensureTable (m : Model ι) (db : Database) (i : ι) : Except OpenError Database :=
  match (m i).schema m with
  | .error e => .error (.compile e)
  | .ok declared =>
    match db.info? declared.table with
    | .error e => .error (.storage e)
    | .ok none =>
      match db.createTable (.ofSchema declared) declared.createText with
      | .ok db => .ok db
      | .error e => .error (.storage e)
    | .ok (some found) =>
      if found.isCompatibleWith declared then .ok db
      else .error (.incompatibleSchema found declared)

/-- Makes sure that the tables of some entities exist, one after the other. -/
def ensureTables (m : Model ι) (db : Database) : List ι → Except OpenError Database
  | [] => .ok db
  | i :: rest =>
    match ensureTable m db i with
    | .ok db => ensureTables m db rest
    | .error e => .error e

/-- Opens a database for some entities, in one transaction: the result is a store with all tables
in place, and on failure the database stays as it was. -/
def open? (m : Model ι) (entities : List ι) (db : Database) : Except OpenError Store × Database :=
  match ensureTables m db entities with
  | .ok db' => (.ok ⟨db', ∅⟩, db')
  | .error e => (.error e, db)

/-- Drops the last handle to the store. -/
def close (s : Store) : Store := { s with log := s.log.close }

/-! ### Changes -/

/-- Executes an action and appends it to the log if it succeeds. -/
def execute (s : Store) (moment : Binary64) (a : Action) : Except StoreError Effect × Store :=
  match s.database.execute moment a with
  | .ok (db, effect) => (.ok effect, ⟨db, s.log.append a⟩)
  | .error e => (.error (.storage e), s)

/-- Inserts a row with the values of a set and the defaults of the entity. -/
def insert (m : Model ι) (root : ι) (fresh : String → Uuid) (s : Store) (moment : Binary64)
    (values : ValueSet) : Except StoreError Effect × Store :=
  if values.isSufficient (m root) then
    match values.insertion m root fresh with
    | .ok a => s.execute moment a
    | .error e => (.error (.compile e), s)
  else (.error (.insufficientInsert (m root).name (values.missing (m root))), s)

/-- Updates the rows on which a predicate holds, or all rows.  An update that assigns nothing is
not executed. -/
def update (m : Model ι) (root : ι) (s : Store) (moment : Binary64) (predicate : Option Term)
    (values : ValueSet) : Except StoreError Effect × Store :=
  match values.updating m root predicate with
  | .ok a => if a.isIdle then (.ok (.changed 0), s) else s.execute moment a
  | .error e => (.error (.compile e), s)

/-- Removes the rows on which a predicate holds, or all rows. -/
def delete (m : Model ι) (root : ι) (s : Store) (moment : Binary64) (predicate : Option Term) :
    Except StoreError Effect × Store :=
  match deletion m root predicate with
  | .ok a => s.execute moment a
  | .error e => (.error (.compile e), s)

/-! ### Reading -/

/-- The result row with given names and values. -/
def resultRow (names : List String) (values : List Value) : Row := .ofList (names.zip values)

/-- Reads some rows in turn, up to the first that cannot be read. -/
def decodeRows (decode : Row → Except DecodeError α) : List Row → Except DecodeError (List α)
  | [] => .ok []
  | row :: rest =>
    match decode row with
    | .ok a => (decodeRows decode rest).map (a :: ·)
    | .error e => .error e

/-- The decoded rows of a query on a database. -/
def results (db : Database) (moment : Binary64) (q : Query) (decode : Row → Except DecodeError α) :
    Except StoreError (List α) :=
  match db.run moment q with
  | .error e => .error (.storage e)
  | .ok rows =>
    match decodeRows decode (rows.map (resultRow (db.resultNames q))) with
    | .ok l => .ok l
    | .error e => .error (.decode e)

/-- Runs a request once. -/
def fetch (m : Model ι) (root : ι) (s : Store) (moment : Binary64) (r : Request)
    (decode : Row → Except DecodeError α) : Except StoreError (List α) :=
  match r.compile m root with
  | .ok q => results s.database moment q decode
  | .error e => .error (.compile e)

/-- The number of live observations, after a clean-up of the log. -/
def subscriberCount (s : Store) : Nat × Store :=
  let log := s.log.cleanup
  (log.subscriberCount, { s with log })

/-- The number of the last applied action. -/
def lastSequence (s : Store) : Nat := s.log.last

end Store

end LiveQuery
