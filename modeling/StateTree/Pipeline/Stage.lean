/-
Module: StateTree.Pipeline.Stage
Purpose: What the pipeline of a site is to be built of. The stages of a stack are listed from the
  outermost one, and built from the innermost one.
-/
import StateTree.Log.Replica
import StateTree.Pipeline.Basic
import StateTree.Update

namespace StateTree

/-- A stage that is to be built. -/
inductive Stage where
  /-- Nothing in between. -/
  | direct
  /-- A buffer, by which name it may be asked for later. -/
  | buffering (name : Option String)
  | asynchronous
  | jitter (config : JitterConfig)
  | readOnly
  | replicaSet (name : String)
  /-- A broadcast to stacks that all end in what is below. -/
  | forwarding (branches : List (List Stage))
  /-- A recorder, in place of what is below. -/
  | recorder (recorder : Recorder)
  /-- Puts the building of a site on record. -/
  | trace (tag : String)
  /-- Cannot be built. -/
  | refuse (reason : String)
  /-- Submits something to what is below while it is built. -/
  | eager (draft : Draft)
  | log (name : String) (settings : ReplicaSettings) (tap : Tap LogShelf)

end StateTree
