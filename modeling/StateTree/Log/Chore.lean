/-
Module: StateTree.Log.Chore
Purpose: What the thread of a replica does when it looks at the log, kept as data: it reads, hands
  on what it has read, notes how far the replica has come, and compacts when that is due. A chore
  can be done in one go, and one step at a time between steps of others.
-/
import StateTree.Log.Replica

namespace StateTree

/-- What the thread of a replica does. -/
inductive Chore : Type 1 where
  /-- Rest. Tells whether the log could be read. -/
  | rest (isRead : Bool)
  | consult {α : Type} (program : LogProgram α) (next : Except LogError α → Chore)
  /-- See how far the replica has come. -/
  | look (next : Replica → Chore)
  /-- Hand on the update of a record, if it holds one. -/
  | pass (record : LogRecord) (next : Chore)
  /-- Note that the record of a number has been applied. -/
  | advance (number : Nat) (next : Chore)
  /-- Hand on the tree of a snapshot as a whole, and note its position. -/
  | takeOver (position : Nat) (root : Node) (next : Chore)
  /-- Note that a snapshot of the position is stored. -/
  | compacted (next : Chore)

namespace Chore

/-- Apply records one after the other. -/
def applying (records : List LogRecord) (next : Chore) : Chore :=
  records.foldr (fun record rest => .pass record (.advance record.number rest)) next

/-- Store a snapshot and drop what it covers, if it is time for that. When another replica was
faster, that serves as well; after any other failure it stays due. -/
def compacting (schema : Schema) : Chore :=
  .look fun replica =>
    if replica.isCompactionDue then
      .consult (replica.settings.compact schema replica.position) fun
        | .ok () | .error (.revisionConflict _ _) => .compacted (.rest true)
        | .error _ => .rest true
    else .rest true

/-- Apply everything that the log has now, or take over a snapshot in place of records that are
gone. -/
def catchUp (schema : Schema) : Chore :=
  .look fun replica =>
    .consult (replica.settings.catchUp schema replica.position) fun
      | .error _ => .rest false
      | .ok (.snapshot position root) => .takeOver position root (.rest true)
      | .ok (.records records) => applying records (compacting schema)

end Chore

end StateTree
