/-!
# Configuration of a store

## Main definitions

* `Location`: where the database lives.
* `StoreConfig`: the settings of a store's connection, with `StoreConfig.default`,
  `StoreConfig.file` and `StoreConfig.forTesting` to start from.
-/

namespace LiveQuery

/-- Where the database lives. -/
inductive Location where
  /-- In memory, gone when the store is closed. -/
  | memory
  /-- In a file, which is created if missing. -/
  | file (path : String)
deriving DecidableEq, Repr

/-- The settings of a store's connection. -/
structure StoreConfig where
  /-- Where the database lives. -/
  location : Location
  /-- How long a statement waits for a locked database, in milliseconds. -/
  busyTimeout : Nat
  /-- How many prepared statements are kept. -/
  statementCache : Nat
  /-- Whether foreign keys are enforced. -/
  foreignKeys : Bool
deriving DecidableEq, Repr

namespace StoreConfig

/-- A database in memory, five seconds of patience, 64 statements, and foreign keys enforced. -/
def default : StoreConfig := ⟨.memory, 5000, 64, true⟩

/-- The default settings for a database file. -/
def file (path : String) : StoreConfig := { default with location := .file path }

/-- A database in memory with little patience and few statements. -/
def forTesting : StoreConfig := ⟨.memory, 100, 8, true⟩

/-- Sets how long a statement waits. -/
def withBusyTimeout (c : StoreConfig) (milliseconds : Nat) : StoreConfig :=
  { c with busyTimeout := milliseconds }

/-- Sets how many prepared statements are kept. -/
def withStatementCache (c : StoreConfig) (capacity : Nat) : StoreConfig :=
  { c with statementCache := capacity }

/-- Sets whether foreign keys are enforced. -/
def withForeignKeys (c : StoreConfig) (enforced : Bool) : StoreConfig :=
  { c with foreignKeys := enforced }

end StoreConfig

end LiveQuery
