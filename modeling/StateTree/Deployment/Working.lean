/-
Module: StateTree.Deployment.Working
Purpose: How a site does its work. An update that reaches a site joins the queue; whoever finds the
  queue idle drains it, item by item. The hooks that an item calls for run before the next item,
  with the item's root pinned and under the diagnostic context of its update.
-/
import StateTree.Deployment.Call

namespace StateTree.Deployment

/-- Change a site, and drain its queue if that falls to the caller. -/
def changeSite (next : Caller) (number : Nat) (change : Site Nat → Bool × Site Nat) : Run Unit := do
  let station ← station number
  let (drains, site) := change station.site
  putSite number site
  if drains then next.perform (.drain number)

/-- An item of a site's queue, taken by the drainer. -/
def takeWork (number : Nat) (take : Site Nat → Option (WorkItem Nat) × Site Nat) :
    Run (Option (WorkItem Nat)) := do
  let station ← station number
  let (item, site) := take station.site
  putSite number site
  pure item

/-- The update that an action of a hook submits. -/
def hookUpdate (path : Path) (draft : Draft) (below : Option Path) : Run Update := do
  let deployment ← get
  let update := draft.capture deployment.thread.scopes.current
  match below with
  | none => pure update
  | some below => pure { update with operation := update.operation.retarget (path ++ below) }

/-- Take the due ones of a plan's actions, in their order. -/
def takeActions (next : Caller) (outlet : Pipeline) (plan : Nat) (path : Path) : List Nat → Run Unit
  | [] => pure ()
  | index :: rest => do
      let deployment ← get
      let current ← demand deployment.plans[plan]?
      match current.due? index with
      | none => takeActions next outlet plan path rest
      | some action => do
          set { deployment with plans := deployment.plans.set plan (current.spend index) }
          match action with
          | .submit draft below => do
              let update ← hookUpdate path draft below
              let result ← (next.submit outlet update).run
              putEvent (.acted current.name "submit" result)
              takeActions next outlet plan path rest
          | .flush => do
              let result ← (next.flush outlet).run
              putEvent (.acted current.name "flush" result)
              takeActions next outlet plan path rest
          | .abort => pure ()

/-- Run a hook for a location. -/
def fire (next : Caller) (outlet : Pipeline) (plan : Nat) (path : Path) : Run Unit := do
  let deployment ← get
  let current ← demand deployment.plans[plan]?
  match current.scope.boundBy path with
  | .error _ => pure ()
  | .ok reference => do
      let thread := deployment.thread
      let value := Reference.orAbsent (reference.value thread.bindings)
      putEvent (.ran current.site current.name path value thread.scopes.current)
      takeActions next outlet plan path (List.range current.steps.length)

/-- Run a hook of a site with the root that it reads pinned. -/
def runHook (next : Caller) (number : Nat) (outlet : Pipeline) (call : HookCall Nat) :
    Run Unit := do
  let deployment ← get
  let (context, bindings) := deployment.thread.bindings.replace number call.root
  changeThread fun thread => { thread with bindings := bindings }
  fire next outlet call.hook.payload call.path
  changeThread fun thread => { thread with bindings := thread.bindings.leave context }

/-- Do something under the diagnostic context that an item of work brings. -/
def underContextOf (item : WorkItem Nat) (run : Run Unit) : Run Unit :=
  match item with
  | .introduce _ => run
  | .apply update => do
      changeThread fun thread => { thread with scopes := thread.scopes.enter update.diagnostics }
      run
      changeThread fun thread => { thread with scopes := thread.scopes.leave }

/-- Do an item of a site's work. -/
def work (next : Caller) (number : Nat) (item : WorkItem Nat) : Run Unit := do
  let station ← station number
  let (site, calls) := station.site.process item
  putSite number site
  match station.outlet with
  | some outlet => underContextOf item (calls.forM (runHook next number outlet))
  | none => pure ()

/-- Do an item of a site's work, if one was taken, and those after it until none is left. The last
argument bounds their number. -/
def workOff (next : Caller) (number : Nat) : Option (WorkItem Nat) → Nat → Run Unit
  | none, _ => pure ()
  | some _, 0 => demand none
  | some item, count + 1 => do
      work next number item
      let following ← takeWork number Site.finish
      workOff next number following count

/-- Do the work of a site until none is left. -/
def drain (next : Caller) (number : Nat) : Run Unit := do
  changeThread fun thread => { thread with draining := number :: thread.draining }
  let item ← takeWork number Site.take
  workOff next number item endless
  changeThread fun thread => { thread with draining := thread.draining.filter (· != number) }

/-- Wait until the work that a site has now is done. The thread that does it does not wait. -/
def awaitIdle (number : Nat) : Run Unit := do
  let station ← station number
  let deployment ← get
  let queue := station.site.queue
  if number ∈ deployment.thread.draining ∨ queue.hasReached queue.enqueued then pure ()
  else demand none

end StateTree.Deployment
