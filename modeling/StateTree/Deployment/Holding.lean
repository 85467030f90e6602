/-
Module: StateTree.Deployment.Holding
Purpose: The stages that hold updates back: buffers until the next flush, workers until their thread
  comes to them.
-/
import StateTree.Deployment.Call

namespace StateTree.Deployment

/-! ## Buffers -/

/-- Hold an update back until the next flush. -/
def bufferUpdate (number : Nat) (update : Update) : Attempt Unit := do
  let held ← buffer number
  putBuffer number (held.push update)

/-- Hand updates on in their order, up to the first that is refused. -/
def handOn (next : Caller) (down : Pipeline) (updates : List Update) : Attempt Unit :=
  updates.forM (next.submit down)

/-- Hand on what a buffer holds until it stays empty, with what hooks add meanwhile. The batch at
hand is out of the buffer, so what follows a refused update in it is gone. The last argument bounds
the number of batches. -/
def forward (next : Caller) (number : Nat) (down : Pipeline) : Nat → Attempt Unit
  | 0 => ExceptT.lift (demand none)
  | rounds + 1 => do
      let held ← buffer number
      let (batch, emptied) := held.takeAll
      putBuffer number emptied
      if batch.isEmpty then pure ()
      else do
        handOn next down batch
        forward next number down rounds

/-- Say which thread hands on what a buffer holds. -/
def putForwarder (number : Nat) (forwarder : Option ThreadId) : Run Unit := do
  let held ← buffer number
  putBuffer number { held with forwarder := forwarder }

/-- Hand on what a buffer holds, and flush what it was handed on to. A hook that flushes while the
buffer is handed on leaves the rest to the flush that is at it. -/
def flushBuffer (next : Caller) (number : Nat) (down : Pipeline) : Attempt Unit := do
  let held ← buffer number
  let deployment ← getThe Deployment
  let current := deployment.thread.id
  if held.forwarder = some current then next.flush down
  else do
    putForwarder number (some current)
    let forwarded ← outcome (forward next number down endless)
    putForwarder number none
    match forwarded with
    | .ok () => next.flush down
    | .error error => throw error

/-! ## Workers -/

/-- Leave an update to a worker. -/
def queueUpdate (number : Nat) (update : Update) : Attempt Unit := do
  let state ← worker number
  match state.send? update with
  | some state => putWorker number state
  | none => throw .shutdown

/-- The thread of a worker hands on so many of its updates. -/
def serve (next : Caller) (number : Nat) (down : Pipeline) : Nat → Run Unit
  | 0 => pure ()
  | count + 1 => do
      let state ← worker number
      let (update, state) := state.take
      putWorker number state
      match update with
      | some update => next.offer down update
      | none => pure ()
      serve next number down count

/-- The thread of a worker hands on all updates it has now. -/
def serveAll (next : Caller) (number : Nat) (down : Pipeline) : Run Unit := do
  let state ← worker number
  serve next number down state.updates.length

/-- Wait until the thread of a worker has come to a mark behind all updates it has now, and has
flushed there what it hands on to. The thread itself does not wait for itself. -/
def flushWorker (next : Caller) (number : Nat) (down : Pipeline) : Attempt Unit := do
  let isOwn ← isOn (.worker number)
  if isOwn then next.flush down
  else do
    let state ← worker number
    if state.isOpen then
      ExceptT.mk (onThread (.worker number) do
        serveAll next number down
        (next.flush down).run)
    else throw .shutdown

/-- Close a worker, and wait until it has handed on what it has. The thread itself does not wait for
itself. -/
def closeWorker (next : Caller) (number : Nat) (down : Pipeline) : Run Unit := do
  let state ← worker number
  putWorker number state.close
  let isOwn ← isOn (.worker number)
  if isOwn then pure () else onThread (.worker number) (serveAll next number down)
  next.close down

end StateTree.Deployment
