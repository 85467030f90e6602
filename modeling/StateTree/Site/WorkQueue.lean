/-
Module: StateTree.Site.WorkQueue
Purpose: The queue of a site's work. Whoever adds work while nobody is at it becomes the drainer and
  takes items one after the other until none is left. Each function here is one section under the
  queue's lock.
-/

namespace StateTree

/-- Work that waits, first come first, and counts of what was added and what is done. Before the
queue is started work only gathers. -/
structure WorkQueue (α : Type) where
  pending : List α
  isStarted : Bool
  isDraining : Bool
  enqueued : Nat
  completed : Nat

namespace WorkQueue

variable {α : Type}

/-- A queue that nothing was added to and that is not started. -/
def empty : WorkQueue α := ⟨[], false, false, 0, 0⟩

/-- Take on draining, if there is work to do and nobody is at it, and tell whether that is so. -/
def claim (queue : WorkQueue α) : Bool × WorkQueue α :=
  if queue.isStarted && !queue.isDraining && !queue.pending.isEmpty then
    (true, { queue with isDraining := true })
  else (false, queue)

/-- Add an item at the end, and tell whether to drain. -/
def enqueue (queue : WorkQueue α) (item : α) : Bool × WorkQueue α :=
  claim { queue with pending := queue.pending ++ [item], enqueued := queue.enqueued + 1 }

/-- Start the queue, and tell whether to drain. -/
def start (queue : WorkQueue α) : Bool × WorkQueue α := claim { queue with isStarted := true }

/-- The drainer takes the next item, or gives up draining when there is none. -/
def take (queue : WorkQueue α) : Option α × WorkQueue α :=
  match queue.pending with
  | item :: rest => (some item, { queue with pending := rest })
  | [] => (none, { queue with isDraining := false })

/-- The drainer is done with an item and takes the next one. -/
def finish (queue : WorkQueue α) : Option α × WorkQueue α :=
  take { queue with completed := queue.completed + 1 }

/-- Whether a wait for the first `target` items is over. Nobody waits for a queue that is not
started. -/
def hasReached (queue : WorkQueue α) (target : Nat) : Bool :=
  !queue.isStarted || decide (target ≤ queue.completed)

end WorkQueue

end StateTree
