/-
Module: StateTree.Log.Memory
Purpose: A log in memory. It can be told to report itself unavailable for the next few calls; such
  a call has no effect.
-/
import StateTree.Log.Call

namespace StateTree

/-- A log in memory. `first` is the number of the first retained record; the retained records are
kept latest first. -/
structure MemoryLog where
  manifest : Option Manifest
  state : Option StateDocument
  first : Nat
  records : List LogRecord
  failures : Nat
  feed : Feed

namespace MemoryLog

/-- A log that nothing has been written to. -/
def empty : MemoryLog := ⟨none, none, 0, [], 0, ⟨0, 0⟩⟩

/-- The number of retained records. -/
def size (log : MemoryLog) : Nat := log.records.length

/-- The number that the next record will get. -/
def head (log : MemoryLog) : Nat :=
  match log.records with
  | latest :: _ => latest.number + 1
  | [] => log.first

/-- The retained records from a position on, in the order of their numbers. -/
def since (log : MemoryLog) (position : Nat) : List LogRecord :=
  (log.records.take (log.head - position)).reverse

/-- Make the next so many calls fail. -/
def failNext (log : MemoryLog) (count : Nat) : MemoryLog := { log with failures := count }

/-- A log as messages show it. -/
def text (log : MemoryLog) : String :=
  s!"InMemoryLog \x7b first: {log.first}, head: {log.head} \x7d"

/-- Answer a call of an available log. -/
def answer (log : MemoryLog) {α : Type} : LogCall α → Except LogError α × MemoryLog
  | .manifest => (.ok log.manifest, log)
  | .initializeManifest manifest =>
      let stored := log.manifest.getD manifest
      (.ok stored, { log with manifest := some stored })
  | .state => (.ok log.state, log)
  | .replaceState expected document =>
      let actual := log.state.map StateDocument.revision
      if actual = expected then (.ok (), { log with state := some document })
      else (.error (.revisionConflict expected actual), log)
  | .upgrade expected manifest document =>
      if log.manifest = some expected then
        (.ok (), { log with manifest := some manifest, state := document.or log.state })
      else (.error (.manifestMismatch (log.manifest.getD expected) manifest), log)
  | .append correlation body =>
      let number := log.head
      let record : LogRecord := ⟨number, correlation, body⟩
      (.ok number,
        { log with records := record :: log.records, feed := log.feed.announce (number + 1) })
  | .readFrom position =>
      if position < log.first then (.error (.compacted position log.first), log)
      else (.ok (log.since position), log)
  | .head => (.ok log.head, log)
  | .discardBefore position =>
      let kept := max log.first (min position log.head)
      (.ok (), { log with first := kept, records := log.records.take (log.head - kept) })

/-- Answer a call, or report the log unavailable. -/
def perform (log : MemoryLog) {α : Type} (call : LogCall α) : Except LogError α × MemoryLog :=
  match log.failures with
  | 0 => log.answer call
  | failures + 1 => (.error (.backend "injected failure"), { log with failures := failures })

end MemoryLog

end StateTree
