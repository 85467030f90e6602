/-
Module: StateTree.Log.Replay
Purpose: What a log says the tree is: the stored snapshot with the later updates folded in. Catching
  up reads what a replica has not applied yet; compaction stores a later snapshot and drops the
  records that it covers.
-/
import StateTree.Log.Startup
import StateTree.Schema.Polyfill

namespace StateTree

/-- A tree with an update folded in. One that fails or has no effect leaves the tree. -/
def Update.foldInto (schema : Schema) (root : Node) (update : Update) : Node :=
  match update.operation.apply schema root with
  | .ok (some after) => after
  | _ => root

/-- A tree with a record folded in. -/
def LogRecord.foldInto (schema : Schema) (root : Node) (record : LogRecord) : Node :=
  match record.body with
  | .update update => update.foldInto schema root
  | .barrier => root

/-- A snapshot with later records folded in: its revision and its position, and the tree. -/
structure Replayed where
  revision : Nat
  position : Nat
  root : Node

/-- What a replica has to apply to catch up. -/
inductive Arrears where
  /-- The records from its position on. -/
  | records (records : List LogRecord)
  /-- A snapshot of a later position and the tree in it; the records before it are gone. -/
  | snapshot (position : Nat) (root : Node)

/-- The tree of a snapshot, completed by the schema's defaults. -/
def StateDocument.load (schema : Schema) (document : StateDocument) : LogProgram Node :=
  match document.node? with
  | some root => pure (schema.polyfill root)
  | none => .fail .codec

namespace ReplicaSettings

variable (settings : ReplicaSettings) (schema : Schema)

/-- The stored snapshot, which has to be there. -/
def requireState (absence : String) : LogProgram StateDocument := do
  let state ← settings.loadState
  match state with
  | some document => pure document
  | none => .fail (.backend absence)

/-- The snapshot that stands for records that are gone. -/
def reload : LogProgram Arrears := do
  let document ← settings.requireState "log is compacted but has no state document"
  let root ← document.load schema
  pure (.snapshot document.position root)

/-- What there is to apply from a position on. -/
def catchUp (position : Nat) : LogProgram Arrears :=
  let read : LogProgram Arrears := do
    let records ← settings.attempt (.readFrom position)
    pure (.records (records.filter fun record => position ≤ record.number))
  read.recover fun
    | .compacted _ _ => settings.reload schema
    | error => .fail error

/-- The tree that the log describes before the record of the number `upTo`. A snapshot of a later
position is taken as it is. -/
def replay (upTo : Nat) : LogProgram Replayed := do
  let document ← settings.requireState "no state document"
  let root ← document.load schema
  let records ← settings.attempt (.readFrom document.position)
  let earlier := records.filter fun record => record.number < upTo
  let folded := earlier.foldl (LogRecord.foldInto schema) root
  pure ⟨document.revision, document.position, folded⟩

/-- Store a snapshot as of a position and drop the records before it, unless the stored one is as
late already. -/
def compact (position : Nat) : LogProgram Unit := do
  let replayed ← settings.replay schema position
  if position ≤ replayed.position then pure ()
  else do
    let document :=
      StateDocument.ofNode replayed.root settings.manifest.format (replayed.revision + 1) position
    LogProgram.call (.replaceState (some replayed.revision) document)
    LogProgram.call (.discardBefore position)

end ReplicaSettings

end StateTree
