/-
Module: StateTree.Log.Call
Purpose: What a log backend is asked. A backend keeps totally ordered records and two documents
  beside them, the manifest and the latest snapshot.
-/
import StateTree.Log.Error
import StateTree.Log.Record

namespace StateTree

/-- A call of a log backend, by the type of its answer. -/
inductive LogCall : Type → Type where
  /-- The stored manifest, if one has been written. -/
  | manifest : LogCall (Option Manifest)
  /-- Store a manifest unless there is one, and tell which is stored then. -/
  | initializeManifest (manifest : Manifest) : LogCall Manifest
  /-- The latest snapshot, if there is one. -/
  | state : LogCall (Option StateDocument)
  /-- Replace the snapshot if its revision is the expected one. -/
  | replaceState (expected : Option Nat) (document : StateDocument) : LogCall Unit
  /-- Switch to another manifest if the stored one is the expected one, with a new snapshot or the
  one there is. -/
  | upgrade (expected manifest : Manifest) (document : Option StateDocument) : LogCall Unit
  /-- Append a record and tell its number. -/
  | append (correlation : Uuid) (body : RecordBody) : LogCall Nat
  /-- The retained records from a position on. -/
  | readFrom (position : Nat) : LogCall (List LogRecord)
  /-- The number that the next record will get. -/
  | head : LogCall Nat
  /-- Drop the records before a position. -/
  | discardBefore (position : Nat) : LogCall Unit

/-- The sorts of call. -/
inductive LogMethod where
  | manifest
  | initializeManifest
  | state
  | replaceState
  | upgrade
  | append
  | readFrom
  | head
  | discardBefore
deriving DecidableEq

namespace LogMethod

/-- All sorts of call, by the names that configurations give them. -/
def named : List (String × LogMethod) :=
  [("manifest", .manifest), ("initialize_manifest", .initializeManifest), ("state", .state),
    ("replace_state", .replaceState), ("upgrade", .upgrade), ("append", .append),
    ("read_from", .readFrom), ("head", .head), ("discard_before", .discardBefore)]

def ofName? (name : String) : Option LogMethod := named.lookup name

def name (method : LogMethod) : String :=
  match named.find? fun entry => entry.2 == method with
  | some entry => entry.1
  | none => ""

end LogMethod

/-- The sort of a call. -/
def LogCall.method {α : Type} : LogCall α → LogMethod
  | .manifest => .manifest
  | .initializeManifest _ => .initializeManifest
  | .state => .state
  | .replaceState _ _ => .replaceState
  | .upgrade _ _ _ => .upgrade
  | .append _ _ => .append
  | .readFrom _ => .readFrom
  | .head => .head
  | .discardBefore _ => .discardBefore

/-- What subscribers of a log are told: the head after the latest append, and how often it moved. -/
structure Feed where
  head : Nat
  moves : Nat
deriving DecidableEq

/-- The head has moved. -/
def Feed.announce (feed : Feed) (head : Nat) : Feed := ⟨head, feed.moves + 1⟩

end StateTree
