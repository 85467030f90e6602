/-
Module: StateTree.Deployment.Following
Purpose: Replicas. What is submitted to a replica is appended to its log and nothing else; a thread
  of the replica follows the log and hands each update on in the order of the log. A flush appends a
  barrier and waits until that thread has passed it.
-/
import StateTree.Deployment.Call
import StateTree.Log.Chore

namespace StateTree.Deployment

/-- The schema of a replica's site. -/
def replicaSchema (number : Nat) : Run Schema := do
  let state ← replica number
  let station ← station state.site
  pure station.site.schema

/-- Load the stored snapshot, or store the root of what is below as the first one, and follow the
log from there. -/
def replicaRoot (next : Caller) (number : Nat) (down : Pipeline) : Attempt Node := do
  let state ← replica number
  let stored ← consulted number state.settings.loadState
  let document ← match stored with
    | some document => pure document
    | none => do
        let root ← next.initialRoot down
        let first ← consulted number (state.settings.storeFirst root)
        match first with
        | some document => pure document
        | none => throw (.flushFailure .stateVanished)
  let schema ← replicaSchema number
  let root ← consulted number (document.load schema)
  changeReplica number (·.startAt document.position)
  pure root

/-- Append an update to the log. -/
def submitToLog (number : Nat) (update : Update) : Attempt Unit := do
  let state ← replica number
  if state.isClosed then throw .shutdown
  else do
    let correlation ← mint
    let _ ← consulted number (state.settings.attempt (.append correlation (.update update)))

/-! ## Following the log -/

/-- Note how far a replica has come, at the moment that it is now. -/
def noteMove (number : Nat) (move : Replica → Nat → Replica) : Run Unit := do
  let deployment ← get
  changeReplica number (move · deployment.clock)

/-- Do a chore of a replica in one go. When what it hands on is refused below, nobody is told. -/
def pursue (next : Caller) (number : Nat) (down : Pipeline) : Chore → Run Bool
  | .rest isRead => pure isRead
  | .consult program rest => do
      let result ← consult number program
      pursue next number down (rest result)
  | .look rest => do
      let state ← replica number
      pursue next number down (rest state)
  | .pass record rest => do
      match record.body with
      | .update update => next.offer down update
      | .barrier => pure ()
      pursue next number down rest
  | .advance record rest => do
      noteMove number (·.advance record)
      pursue next number down rest
  | .takeOver position root rest => do
      let deployment ← get
      let operation : Operation := .replacement .root root
      next.offer down ⟨operation, deployment.thread.scopes.current⟩
      noteMove number (·.jump position)
      pursue next number down rest
  | .compacted rest => do
      changeReplica number Replica.compacted
      pursue next number down rest

/-- Apply everything that the log has now, and tell whether it could be read. -/
def catchUp (next : Caller) (number : Nat) (down : Pipeline) : Run Bool := do
  let schema ← replicaSchema number
  pursue next number down (.catchUp schema)

/-- The thread of a replica looks at the log once, and rests until it looks again: for the longest
delay when the log could not be read, for the poll interval when nothing new was announced. -/
def follow (next : Caller) (number : Nat) (down : Pipeline) : Run Unit :=
  onThread (.subscription number) do
    let deployment ← get
    let moves (state : Replica) (deployment : Deployment) : Nat :=
      (deployment.logs.feed state.store).moves
    changeReplica number fun state => { state with seen := some (moves state deployment) }
    let isRead ← catchUp next number down
    let state ← replica number
    let deployment ← get
    if !isRead then rest (state.settings.backoff state.settings.maxRetries)
    else if state.seen = some (moves state deployment) then rest state.settings.pollInterval

/-- Have the thread of a replica look at the log until it has passed a barrier, up to a moment. When
a look leaves the replica where it was and the faults in its way as well, so does any later one. The
last argument bounds the number of looks. -/
def awaitBarrier (next : Caller) (number : Nat) (down : Pipeline) (barrier deadline : Nat) :
    Nat → Run Unit
  | 0 => demand none
  | looks + 1 => do
      let before ← replica number
      let deployment ← get
      if before.hasPassed barrier || !before.isRunning || before.isPaused
          || decide (deadline ≤ deployment.clock) then pure ()
      else do
        follow next number down
        let after ← replica number
        if after.isAsFarAs before then pure ()
        else awaitBarrier next number down barrier deadline looks

/-- Append a barrier, wait until it has been passed, and flush what is below. Who waits goes on when
the barrier is passed, whatever the thread that follows the log does then. That thread has handed on
all it has read, and does not wait for itself. -/
def flushReplica (next : Caller) (number : Nat) (down : Pipeline) : Attempt Unit := do
  let isFollowing ← isOn (.subscription number)
  if isFollowing then next.flush down
  else do
    let state ← replica number
    let correlation ← mint
    let barrier ← consulted number (state.settings.attempt (.append correlation .barrier))
    let deployment ← getThe Deployment
    let start := deployment.clock
    let deadline := start + state.settings.flushTimeout
    awaitBarrier next number down barrier deadline endless
    let state ← replica number
    let isInTime := decide (state.movedAt ≤ start ∨ state.movedAt < deadline)
    if state.isClosed then throw .shutdown
    else if state.hasPassed barrier && isInTime then do
      setClock (max start state.movedAt)
      next.flush down
    else do
      setClock deadline
      throw (.flushFailure .timeout)

/-- Stop following the log. -/
def closeReplica (next : Caller) (number : Nat) (down : Pipeline) : Run Unit := do
  let state ← replica number
  if state.isClosed then pure ()
  else do
    changeReplica number Replica.close
    next.close down

end StateTree.Deployment
