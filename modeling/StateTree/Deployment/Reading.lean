/-
Module: StateTree.Deployment.Reading
Purpose: Read contexts and diagnostic scopes of the main thread of a deployment.
-/
import StateTree.Deployment.Basic

namespace StateTree.Deployment

/-- Open a read context of a site under a name, and tell the root in it. -/
def openContext (name : String) (number : Nat) : Run Node := do
  let own ← station number
  let deployment ← get
  let (context, bindings) := deployment.thread.bindings.enter number own.site.root
  set
    { deployment with
      thread := { deployment.thread with bindings := bindings }
      contexts := (name, context) :: deployment.contexts }
  pure context.root

/-- Leave the innermost read context, and tell its name. -/
def closeContext : Run (Option String) := do
  let deployment ← get
  match deployment.contexts with
  | [] => pure none
  | (name, context) :: rest => do
      let bindings := deployment.thread.bindings.leave context
      set
        { deployment with
          thread := { deployment.thread with bindings := bindings }, contexts := rest }
      pure (some name)

/-- Change the diagnostic scopes of the thread. -/
def changeScopes (change : DiagnosticScopes → DiagnosticScopes) : Run Unit :=
  changeThread fun thread => { thread with scopes := change thread.scopes }

end StateTree.Deployment
