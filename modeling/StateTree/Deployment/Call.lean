/-
Module: StateTree.Deployment.Call
Purpose: The calls that stages make of one another, and of sites and threads. Who makes a call is
  given a `Caller`, so that each stage is described on its own; the calls are tied together
  elsewhere.
-/
import StateTree.Deployment.Basic

namespace StateTree

/-- A call, by the type of its answer. -/
inductive Call : Type → Type where
  /-- The root that a site is to start from. -/
  | initialRoot (pipeline : Pipeline) : Call (Except PipelineError Node)
  /-- Hand an update on without waiting for it to apply. -/
  | submit (pipeline : Pipeline) (update : Update) : Call (Except PipelineError Unit)
  /-- Wait until all that was submitted has been applied. -/
  | flush (pipeline : Pipeline) : Call (Except PipelineError Unit)
  /-- End all background work. -/
  | close (pipeline : Pipeline) : Call Unit
  /-- Do the work of a site until none is left. -/
  | drain (site : Nat) : Call Unit

/-- A way to make calls. -/
structure Caller where
  perform : {α : Type} → Call α → Run α

namespace Caller

variable (next : Caller)

def initialRoot (pipeline : Pipeline) : Attempt Node :=
  ExceptT.mk (next.perform (.initialRoot pipeline))

def submit (pipeline : Pipeline) (update : Update) : Attempt Unit :=
  ExceptT.mk (next.perform (.submit pipeline update))

def flush (pipeline : Pipeline) : Attempt Unit := ExceptT.mk (next.perform (.flush pipeline))

def close (pipeline : Pipeline) : Run Unit := next.perform (.close pipeline)

/-- Hand an update on; when it is refused, nobody is told. -/
def offer (pipeline : Pipeline) (update : Update) : Run Unit := do
  let _ ← next.perform (.submit pipeline update)
  pure ()

end Caller

end StateTree
