/-
Module: StateTree.Deployment.Settle
Purpose: Background work. A deployment is settled when its workers have handed on all they have and
  its replicas have applied all there is in their logs; and the health of a replica.
-/
import StateTree.Deployment.Perform
import StateTree.Log.Status

namespace StateTree.Deployment

/-- Whether the stage is a worker that has something to hand on. -/
def hasQueued (deployment : Deployment) : Pipeline → Bool
  | .worker number _ =>
      match deployment.workers[number]? with
      | some state => !state.updates.isEmpty
      | none => false
  | _ => false

/-- Whether there is something to do for the thread of a stage. -/
def hasWork (deployment : Deployment) : Pipeline → Bool
  | .replica number _ =>
      match deployment.replicas[number]? with
      | some state => state.isBehind deployment.logs
      | none => false
  | stage => deployment.hasQueued stage

/-- The thread of a stage does what there is to do now. -/
def runThread (next : Caller) (pipeline : Pipeline) : Run Unit := do
  let deployment ← get
  if deployment.hasWork pipeline then
    match pipeline with
    | .worker number down => onThread (.worker number) (serveAll next number down)
    | .replica number down => follow next number down
    | _ => pure ()

/-- How far the replicas have come, with the faults in the way of those that have something to
read. -/
def standing (deployment : Deployment) : List (Nat × Nat × Nat) :=
  deployment.replicas.map fun state =>
    (state.position, state.sinceSnapshot,
      if state.hasUnread deployment.logs then state.hurdles else 0)

/-- Whether a turn came to nothing: no worker had anything to hand on, and the replicas are where
they were. -/
def isVain (before after : Deployment) : Bool :=
  before.background.all (fun stage => !before.hasQueued stage) && after.standing == before.standing

/-- After how many vain turns on end the threads are left alone. -/
def patience : Nat := 400

/-- Have the threads do their work in turns until none of them has any, or until `left` more vain
turns on end. The last argument bounds the number of turns. -/
def settleWithin (next : Caller) (left : Nat) : Nat → Run Unit
  | 0 => demand none
  | turns + 1 => do
      let before ← get
      if left = 0 ∨ before.background.all (fun stage => !before.hasWork stage) then pure ()
      else do
        before.background.forM (runThread next)
        let after ← get
        settleWithin next (if before.isVain after then left - 1 else patience) turns

/-- Let all background work be done. -/
def settle : Run Unit := settleWithin caller patience endless

/-! ## Health -/

/-- The texts of what went wrong, one after the other. When one of them has words that are
another's, so has the whole. -/
def joinedTexts (texts : List (Option String)) : Option String :=
  if texts.isEmpty then none
  else
    match texts.mapM id with
    | some texts => some ("; ".intercalate texts)
    | none => some "unstable"

/-- The text of a failure, if it is one. -/
def failureText {ε α : Type} (message? : ε → Option String) :
    Except ε α → List (Option String)
  | .ok _ => []
  | .error error => [message? error]

/-- Compare the stored manifest and the state of the log with a replica's. What was submitted before
is flushed first. -/
def status (next : Caller) (number : Nat) (down : Pipeline) : Run StatusReport := do
  let manifest ← consult number (.call .manifest)
  let flushed ← (flushReplica next number down).run
  let below ← (next.flush down).run
  let state ← replica number
  let own ← station state.site
  let replayed ← consult number (state.settings.replay own.site.schema state.position)
  let difference :=
    match replayed with
    | .ok replayed => replayed.root.difference own.site.root
    | .error _ => .none
  let texts :=
    failureText LogError.message? manifest ++ failureText PipelineError.message? flushed
      ++ failureText PipelineError.message? below ++ failureText LogError.message? replayed
  pure ⟨joinedTexts texts, ⟨state.settings.manifest, manifest.toOption.join⟩, difference⟩

end StateTree.Deployment
