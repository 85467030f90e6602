/-
Module: StateTree.Deployment.Basic
Purpose: A deployment: the sites of one process, the stages in front of them with what they hold,
  the logs they share and the thread that is running. Everything that happens in a deployment is a
  `Run`; one that waits for what can never happen has no result.
-/
import StateTree.Log.Replica
import StateTree.Pipeline.Buffer
import StateTree.Pipeline.ReplicaSet
import StateTree.Pipeline.Worker
import StateTree.Site.Basic
import StateTree.Site.Plan

namespace StateTree

/-- A site, and the pipeline that its hooks submit to. A site that is not fully built, or not in use
any more, has none, and its hooks do not run. The payload of a hook is the number of its plan. -/
structure Station where
  site : Site Nat
  outlet : Option Pipeline

/-- What belongs to a thread. -/
structure Thread where
  id : ThreadId
  scopes : DiagnosticScopes
  bindings : Bindings
  /-- The sites whose work the thread is doing. -/
  draining : List Nat

/-- A thread that has done nothing yet. -/
def Thread.new (id : ThreadId) : Thread := ⟨id, .initial, .none, []⟩

/-- A call that a recorder has kept. -/
inductive RecordedCall where
  | submit (update : Update)
  | flush
  | close

/-- Sites, stages and logs. Each of them is known by its place in its list; names are for those who
use the deployment. -/
structure Deployment where
  stations : List Station
  buffers : List Buffer
  workers : List Worker
  replicas : List Replica
  plans : List HookPlan
  sets : List (String × ReplicaSet)
  logs : LogShelf
  thread : Thread
  /-- The stages that bring a thread with them. -/
  background : List Pipeline
  siteNames : List (String × Nat)
  bufferNames : List (String × Nat)
  /-- The open read contexts of the main thread, innermost first. -/
  contexts : List (String × ReadContext)
  /-- What hooks have done, latest first. -/
  events : List HookEvent
  /-- The calls that recorders have kept, latest first. -/
  recorded : List (String × RecordedCall)
  trace : List String
  /-- How many unique identifiers were handed out. -/
  minted : Nat
  /-- The time, in milliseconds, that threads have let pass so far. -/
  clock : Nat

/-- What happens in a deployment. -/
abbrev Run := StateT Deployment Option

/-- What happens in a deployment and may fail; what it has done until then stays done. -/
abbrev Attempt := ExceptT PipelineError Run

namespace Deployment

/-- A deployment of nothing. -/
def empty : Deployment where
  stations := []
  buffers := []
  workers := []
  replicas := []
  plans := []
  sets := []
  logs := .empty
  thread := .new .main
  background := []
  siteNames := []
  bufferNames := []
  contexts := []
  events := []
  recorded := []
  trace := []
  minted := 0
  clock := 0

/-- How many rounds a loop takes at most. A loop that ends before gives the same result under any
larger bound. -/
def endless : Nat := 1000000000

/-- What a list has at a place that is in use. -/
def demand {α : Type} (value : Option α) : Run α := fun deployment =>
  value.map fun value => (value, deployment)

def station (number : Nat) : Run Station := do
  let deployment ← get
  demand deployment.stations[number]?

def buffer (number : Nat) : Run Buffer := do
  let deployment ← get
  demand deployment.buffers[number]?

def worker (number : Nat) : Run Worker := do
  let deployment ← get
  demand deployment.workers[number]?

def replica (number : Nat) : Run Replica := do
  let deployment ← get
  demand deployment.replicas[number]?

def putSite (number : Nat) (site : Site Nat) : Run Unit :=
  modify fun deployment =>
    { deployment with
      stations := deployment.stations.modify number fun station => { station with site := site } }

def putOutlet (number : Nat) (outlet : Option Pipeline) : Run Unit :=
  modify fun deployment =>
    { deployment with
      stations :=
        deployment.stations.modify number fun station => { station with outlet := outlet } }

def putBuffer (number : Nat) (buffer : Buffer) : Run Unit :=
  modify fun deployment => { deployment with buffers := deployment.buffers.set number buffer }

def putWorker (number : Nat) (worker : Worker) : Run Unit :=
  modify fun deployment => { deployment with workers := deployment.workers.set number worker }

def changeReplica (number : Nat) (change : Replica → Replica) : Run Unit :=
  modify fun deployment => { deployment with replicas := deployment.replicas.modify number change }

def changeThread (change : Thread → Thread) : Run Unit :=
  modify fun deployment => { deployment with thread := change deployment.thread }

/-- The members of a set; a set that nobody has joined has none. -/
def set? (deployment : Deployment) (name : String) : ReplicaSet :=
  (deployment.sets.lookup name).getD .empty

def changeSet (name : String) (change : ReplicaSet → ReplicaSet) : Run Unit :=
  modify fun deployment =>
    { deployment with sets := Keyed.put name (change (deployment.set? name)) deployment.sets }

/-- Put an event on record. -/
def putEvent (event : HookEvent) : Run Unit :=
  modify fun deployment => { deployment with events := event :: deployment.events }

/-- A unique identifier that was not handed out before. -/
def mint : Run Uuid := do
  let deployment ← get
  set { deployment with minted := deployment.minted + 1 }
  pure (.fresh 0 deployment.minted)

/-- Let time pass. -/
def rest (time : Nat) : Run Unit :=
  modify fun deployment => { deployment with clock := deployment.clock + time }

/-- Go on at a moment. -/
def setClock (moment : Nat) : Run Unit :=
  modify fun deployment => { deployment with clock := moment }

/-- Do something on another thread, which has nothing else to do. -/
def onThread (id : ThreadId) {α : Type} (run : Run α) : Run α := do
  let deployment ← get
  let caller := deployment.thread
  set { deployment with thread := .new id }
  let result ← run
  changeThread fun _ => caller
  pure result

/-- Whether a thread is the one that is running. -/
def isOn (id : ThreadId) : Run Bool := do
  let deployment ← get
  pure (deployment.thread.id == id)

/-- What comes of an attempt, be it a failure. -/
def outcome {α : Type} (attempt : Attempt α) : Attempt (Except PipelineError α) :=
  ExceptT.lift attempt.run

/-- Run a program on the log of a replica. -/
def consult (number : Nat) {α : Type} (program : LogProgram α) : Run (Except LogError α) := do
  let replica ← replica number
  let isFollowing ← isOn (.subscription number)
  let deployment ← get
  let consulted :=
    replica.consult (replica.isPaused && isFollowing) program deployment.logs deployment.clock
  set
    { deployment with
      replicas := deployment.replicas.set number consulted.replica
      logs := consulted.shelf
      clock := consulted.clock }
  pure consulted.result

/-- Run a program on the log of a replica; its errors are the pipeline's. -/
def consulted (number : Nat) {α : Type} (program : LogProgram α) : Attempt α :=
  ExceptT.mk do
    let result ← consult number program
    pure (result.mapError .ofLog)

end Deployment

end StateTree
