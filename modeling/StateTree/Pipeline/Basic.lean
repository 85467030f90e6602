/-
Module: StateTree.Pipeline.Basic
Purpose: Pipelines, the way of an update to the sites it is for. A pipeline is a stage in front of
  what it hands on to; at the end there is a site, or a recorder. Stages with a state of their own
  tell its number, since several pipelines may share what they hand on to.
-/
import StateTree.Pipeline.Jitter
import StateTree.Node.Basic

namespace StateTree

/-- A thread that calls are made on. -/
inductive ThreadId where
  | main
  /-- The thread of an asynchronous stage. -/
  | worker (number : Nat)
  /-- The thread on which a replica follows its log. -/
  | subscription (number : Nat)
deriving DecidableEq

/-- An end of a pipeline that keeps what reaches it. -/
structure Recorder where
  name : String
  root : Option Node
  refuses : Bool
  isUnflushable : Bool

/-- The way of an update. -/
inductive Pipeline where
  /-- A site, with the root it starts from if no stage in front of it has another one. -/
  | site (number : Nat) (standard : Option Node)
  | recorder (recorder : Recorder)
  /-- Updates are held back until the next flush. -/
  | buffer (number : Nat) (down : Pipeline)
  /-- Updates are handed on by a thread of its own. -/
  | worker (number : Nat) (down : Pipeline)
  /-- Calls are held back at random. -/
  | jitter (config : JitterConfig) (down : Pipeline)
  /-- Updates are refused. -/
  | readOnly (down : Pipeline)
  /-- Updates go to all members of a set. -/
  | replicaSet (name : String) (member : Nat) (down : Pipeline)
  /-- Calls go to several pipelines. -/
  | broadcast (downs : List Pipeline)
  /-- Updates go to a log, and from there to all its replicas. -/
  | replica (number : Nat) (down : Pipeline)

mutual

/-- The stages of a pipeline, outermost first. -/
def Pipeline.stages : Pipeline → List Pipeline
  | .site number standard => [.site number standard]
  | .recorder terminal => [.recorder terminal]
  | .buffer number down => .buffer number down :: down.stages
  | .worker number down => .worker number down :: down.stages
  | .jitter config down => .jitter config down :: down.stages
  | .readOnly down => .readOnly down :: down.stages
  | .replicaSet name member down => .replicaSet name member down :: down.stages
  | .broadcast downs => .broadcast downs :: Pipeline.stagesOfAll downs
  | .replica number down => .replica number down :: down.stages

/-- The stages of several pipelines. -/
def Pipeline.stagesOfAll : List Pipeline → List Pipeline
  | [] => []
  | pipeline :: rest => pipeline.stages ++ Pipeline.stagesOfAll rest

end

namespace Pipeline

/-- The thread that a stage brings with it. -/
def thread? : Pipeline → Option ThreadId
  | .worker number _ => some (.worker number)
  | .replica number _ => some (.subscription number)
  | _ => none

/-- The threads that the stages of a pipeline bring with them. -/
def threads (pipeline : Pipeline) : List ThreadId := pipeline.stages.filterMap thread?

/-- The number of the outermost replica of a pipeline, and what it hands on to. -/
def replica? (pipeline : Pipeline) : Option (Nat × Pipeline) :=
  pipeline.stages.findSome? fun
    | .replica number down => some (number, down)
    | _ => none

end Pipeline

end StateTree
