/-
Module: StateTree.Pipeline.Worker
Purpose: What waits for the thread of an asynchronous stage.
-/
import StateTree.Update

namespace StateTree

/-- Updates in the order of submission. A worker that is closed takes no more of them and finishes
those it has. -/
structure Worker where
  updates : List Update
  isOpen : Bool

namespace Worker

/-- A worker with nothing to do. -/
def idle : Worker := ⟨[], true⟩

/-- Leave an update to the worker, unless it is closed. -/
def send? (worker : Worker) (update : Update) : Option Worker :=
  if worker.isOpen then some { worker with updates := worker.updates ++ [update] } else none

/-- Take the next update out. -/
def take (worker : Worker) : Option Update × Worker :=
  match worker.updates with
  | update :: rest => (some update, { worker with updates := rest })
  | [] => (none, worker)

def close (worker : Worker) : Worker := { worker with isOpen := false }

end Worker

end StateTree
