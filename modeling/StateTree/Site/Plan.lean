/-
Module: StateTree.Site.Plan
Purpose: Hooks that are described by what they do: each run is put on record with the value it
  finds, and then a list of actions is gone through.
-/
import StateTree.Pipeline.Error
import StateTree.Site.Reference
import StateTree.Update

namespace StateTree

/-- Something that a hook does when it runs. -/
inductive HookAction where
  /-- Submit an operation; with a path, on that path below the location the hook runs for. -/
  | submit (draft : Draft) (below : Option Path)
  | flush
  /-- Break off the run. -/
  | abort

/-- An action, and how many times it is still to be taken. -/
structure HookStep where
  action : HookAction
  times : Nat

/-- What a hook of a site does at the locations of its scope. -/
structure HookPlan where
  site : String
  name : String
  scope : Reference
  steps : List HookStep

/-- What hooks put on record. -/
inductive HookEvent where
  /-- A hook ran for a location and found a value there. -/
  | ran (site hook : String) (path : Path) (value : Except ReadError (Option Node))
      (diagnostics : DiagnosticContext)
  /-- A hook took an action. -/
  | acted (hook action : String) (result : Except PipelineError Unit)

namespace HookPlan

/-- The action of a step, unless it was taken often enough. -/
def due? (plan : HookPlan) (index : Nat) : Option HookAction := do
  let step ← plan.steps[index]?
  if 0 < step.times then some step.action else none

/-- The plan after the action of a step was taken once more. -/
def spend (plan : HookPlan) (index : Nat) : HookPlan :=
  { plan with
    steps := plan.steps.modify index fun step => { step with times := step.times - 1 } }

end HookPlan

end StateTree
