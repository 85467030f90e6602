/-
Module: StateTree.Log.Shelf
Purpose: The logs that sites share, in memory or in directories. A log is found by its name; a
  replica keeps to the log that had the name when the replica joined it.
-/
import StateTree.Log.File
import StateTree.Log.Memory

namespace StateTree

/-- An open log. A log in a directory tells the number of the directory. -/
inductive LogStore where
  | memory (log : MemoryLog)
  | file (log : FileLog) (directory : Nat)

/-- The logs there are, and which of them has which name. -/
structure LogShelf where
  stores : List LogStore
  directories : List Directory
  named : List (String × Nat)

namespace LogShelf

/-- A shelf without logs. -/
def empty : LogShelf := ⟨[], [], []⟩

/-- Add an open log under a name. -/
def add (shelf : LogShelf) (name : String) (store : LogStore) : LogShelf :=
  { shelf with
    stores := shelf.stores ++ [store]
    named := Keyed.put name shelf.stores.length shelf.named }

/-- A new log in memory. -/
def addMemory (shelf : LogShelf) (name : String) : LogShelf := shelf.add name (.memory .empty)

/-- Open a log in a directory of a number. -/
def openIn (shelf : LogShelf) (name : String) (config : FileLogConfig) (number : Nat) :
    Except LogError Unit × LogShelf :=
  let (result, directory) :=
    FileLog.openIn config ((shelf.directories[number]?).getD Directory.absent)
  let shelf := { shelf with directories := shelf.directories.set number directory }
  match result with
  | .ok log => (.ok (), shelf.add name (.file log number))
  | .error error => (.error error, shelf)

/-- A log in a new directory. -/
def addFile (shelf : LogShelf) (name : String) (config : FileLogConfig) :
    Except LogError Unit × LogShelf :=
  let number := shelf.directories.length
  { shelf with directories := shelf.directories ++ [Directory.absent] }.openIn name config number

/-- The log of a name. -/
def find? (shelf : LogShelf) (name : String) : Option LogStore := do
  let number ← shelf.named.lookup name
  shelf.stores[number]?

/-- Open the directory of a log once more. -/
def reopen (shelf : LogShelf) (name : String) (config : FileLogConfig) :
    Except LogError Unit × LogShelf :=
  match shelf.find? name with
  | some (.file _ directory) => shelf.openIn name config directory
  | _ => (.error .io, shelf)

/-- What a log last told its subscribers. -/
def feed (shelf : LogShelf) (number : Nat) : Feed :=
  match shelf.stores[number]? with
  | some (.memory log) => log.feed
  | some (.file log _) => log.feed
  | none => ⟨0, 0⟩

/-- The number that the next record of a log will get. -/
def head (shelf : LogShelf) (number : Nat) : Nat :=
  match shelf.stores[number]? with
  | some (.memory log) => log.head
  | some (.file log _) => log.head
  | none => 0

/-- The number of records that a log retains. -/
def size (shelf : LogShelf) (number : Nat) : Nat :=
  match shelf.stores[number]? with
  | some (.memory log) => log.records.length
  | some (.file log _) => log.records.length
  | none => 0

/-- Have a log answer a call. -/
def perform (number : Nat) {α : Type} (call : LogCall α) (shelf : LogShelf) :
    Except LogError α × LogShelf :=
  match shelf.stores[number]? with
  | some (.memory log) =>
      let (result, log) := log.perform call
      (result, { shelf with stores := shelf.stores.set number (.memory log) })
  | some (.file log directory) =>
      let (result, log, contents) :=
        log.perform ((shelf.directories[directory]?).getD Directory.absent) call
      (result,
        { shelf with
          stores := shelf.stores.set number (.file log directory)
          directories := shelf.directories.set directory contents })
  | none => (.error .io, shelf)

end LogShelf

end StateTree
