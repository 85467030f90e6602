/-
Module: StateTree.Deployment.Spreading
Purpose: The stages that hand on to several pipelines: replica sets, whose members all get what one
  of them is given, and broadcasts.
-/
import StateTree.Deployment.Call

namespace StateTree.Deployment

/-! ## Replica sets -/

/-- Whether a site has started to work. -/
def hasStarted (deployment : Deployment) (number : Nat) : Bool :=
  match deployment.stations[number]? with
  | some station => station.site.queue.isStarted
  | none => false

/-- A member starts from the root of one that runs already, or else from what is below it. -/
def setRoot (next : Caller) (name : String) (site : Nat) (down : Pipeline) : Attempt Node := do
  let deployment ← getThe Deployment
  match (deployment.set? name).running? deployment.hasStarted site with
  | some other => do
      let running ← station other
      pure running.site.root
  | none => next.initialRoot down

/-- Hand an update on to the members that there are now, up to the first that refuses it. -/
def submitToSet (next : Caller) (name : String) (update : Update) : Attempt Unit := do
  let deployment ← getThe Deployment
  let set := deployment.set? name
  if set.isEmpty then throw .shutdown
  else set.downs.forM fun down => next.submit down update

def flushSet (next : Caller) (name : String) : Attempt Unit := do
  let deployment ← getThe Deployment
  (deployment.set? name).downs.forM next.flush

/-- A member leaves its set. -/
def closeMember (next : Caller) (name : String) (site : Nat) (down : Pipeline) : Run Unit := do
  changeSet name (·.leave site)
  next.close down

/-! ## Broadcasts -/

/-- The first root that one of these can supply; `met` are the reasons of those that were asked
before and have none. Any other error ends the search. -/
def firstRoot (next : Caller) (met : List RootFault) :
    List Pipeline → Attempt (Except (List RootFault) Node)
  | [] => pure (.error met)
  | down :: rest => do
      let found ← outcome (next.initialRoot down)
      match found with
      | .ok root => pure (.ok root)
      | .error (.unsupportedInitialization fault suppressed) =>
          firstRoot next (met ++ fault :: suppressed) rest
      | .error error => throw error

/-- The first root that one of these can supply. -/
def broadcastRoot (next : Caller) (downs : List Pipeline) : Attempt Node := do
  let found ← firstRoot next [] downs
  match found with
  | .ok root => pure root
  | .error met => throw (.unsupportedInitialization (.allDeclined downs.length) met)

end StateTree.Deployment
