/-
Module: StateTree.Log.Replica
Purpose: How far a replica has come on its log. The position is the number of the next record to
  apply; it moves with each record that is applied, and it jumps when a snapshot is loaded.
-/
import StateTree.Log.Replay
import StateTree.Log.Shelf
import StateTree.Log.Tap

namespace StateTree

/-- A replica's place on a log. -/
structure Replica where
  site : Nat
  /-- The number of the log. -/
  store : Nat
  settings : ReplicaSettings
  tap : Tap LogShelf
  position : Nat
  /-- When the position was last moved. -/
  movedAt : Nat
  /-- The number of records applied since the last snapshot. -/
  sinceSnapshot : Nat
  /-- What the log had told its subscribers when the replica last read it. -/
  seen : Option Nat
  /-- Whether the replica follows its log. -/
  isRunning : Bool
  isClosed : Bool
  /-- Whether the replica is cut off from the log when it follows it. -/
  isPaused : Bool

namespace Replica

/-- A replica that has not joined its log yet. -/
def new (site store : Nat) (settings : ReplicaSettings) (tap : Tap LogShelf) : Replica :=
  ⟨site, store, settings, tap, 0, 0, 0, none, false, false, false⟩

/-- Go on from a snapshot of a position, and follow the log from there. A closed replica follows
nothing any more. -/
def startAt (replica : Replica) (position : Nat) : Replica :=
  { replica with position := position, isRunning := !replica.isClosed }

/-- A record of a number has been applied at a moment. -/
def advance (replica : Replica) (number moment : Nat) : Replica :=
  { replica with
    position := number + 1
    movedAt := moment
    sinceSnapshot := replica.sinceSnapshot + 1 }

/-- A snapshot of a position has been loaded at a moment. -/
def jump (replica : Replica) (position moment : Nat) : Replica :=
  { replica with position := position, movedAt := moment, sinceSnapshot := 0 }

/-- A snapshot of the position is stored. -/
def compacted (replica : Replica) : Replica := { replica with sinceSnapshot := 0 }

/-- Whether it is time for a snapshot. -/
def isCompactionDue (replica : Replica) : Bool :=
  let interval := replica.settings.compactionInterval
  decide (0 < interval) && decide (interval ≤ replica.sinceSnapshot)

/-- Whether a barrier of a number has been passed. -/
def hasPassed (replica : Replica) (barrier : Nat) : Bool := decide (barrier < replica.position)

/-- Stop following the log. -/
def stop (replica : Replica) : Replica := { replica with isRunning := false }

def close (replica : Replica) : Replica := { replica.stop with isClosed := true }

/-- Whether the log has something that the replica has not read. -/
def hasUnread (replica : Replica) (shelf : LogShelf) : Bool :=
  decide (replica.position < shelf.head replica.store)
    || replica.seen != some (shelf.feed replica.store).moves

/-- Whether there is something to do for the thread that follows the log. -/
def isBehind (replica : Replica) (shelf : LogShelf) : Bool :=
  replica.isRunning && !replica.isPaused && (replica.isCompactionDue || replica.hasUnread shelf)

/-- How many calls are going to fail. -/
def hurdles (replica : Replica) : Nat :=
  replica.tap.failures.foldl (fun total entry => total + entry.2) 0

/-- Whether nothing has come of a look at the log: the replica is where it was before, and no fault
in its way is gone. -/
def isAsFarAs (replica before : Replica) : Bool :=
  replica.position == before.position && replica.sinceSnapshot == before.sinceSnapshot
    && replica.hurdles == before.hurdles
    && replica.tap.intrusions.length == before.tap.intrusions.length

/-- What has come of a program that was run on a replica's log, and the moment it ended. -/
structure Consulted (α : Type) where
  result : Except LogError α
  replica : Replica
  shelf : LogShelf
  clock : Nat

/-- Run a program on the replica's log, from a moment on. When the replica is cut off, every call
fails. -/
def consult (replica : Replica) (isCutOff : Bool) {α : Type} (program : LogProgram α)
    (shelf : LogShelf) (clock : Nat) : Consulted α :=
  let answer : {β : Type} → LogCall β → Tap LogShelf × LogShelf →
      Except LogError β × (Tap LogShelf × LogShelf) :=
    fun call state =>
      if isCutOff then (.error (.backend "paused"), state)
      else Tap.perform (LogShelf.perform replica.store) call state
  let (result, (tap, shelf), clock) := program.run answer (replica.tap, shelf) clock
  ⟨result, { replica with tap := tap }, shelf, clock⟩

end Replica

end StateTree
