/-
Module: StateTree.Diagnostics
Purpose: Diagnostic attributes, which travel with updates. A thread has a current context, which
  scopes replace and put back; nothing here ever looks into the attributes.
-/
import StateTree.Container.Keyed

namespace StateTree

/-- Attributes by key, in ascending order of the keys. -/
structure DiagnosticContext where
  attributes : List (String × String)
deriving DecidableEq

namespace DiagnosticContext

def empty : DiagnosticContext := ⟨[]⟩

instance : Inhabited DiagnosticContext := ⟨empty⟩

def isEmpty (context : DiagnosticContext) : Bool := context.attributes.isEmpty

def get? (context : DiagnosticContext) (key : String) : Option String :=
  context.attributes.lookup key

/-- The context with one attribute set. -/
def insert (context : DiagnosticContext) (key value : String) : DiagnosticContext :=
  ⟨Keyed.putSorted key value context.attributes⟩

/-- The context of these attributes; of two for a key the later one counts. -/
def ofPairs (pairs : List (String × String)) : DiagnosticContext := ⟨Keyed.sortedOfPairs pairs⟩

end DiagnosticContext

/-- The diagnostic context of a thread, with what each open scope puts back, innermost first. -/
structure DiagnosticScopes where
  current : DiagnosticContext
  previous : List DiagnosticContext

namespace DiagnosticScopes

/-- A thread's context before any scope is opened. -/
def initial : DiagnosticScopes := ⟨.empty, []⟩

instance : Inhabited DiagnosticScopes := ⟨initial⟩

/-- Open a scope with another context. -/
def enter (scopes : DiagnosticScopes) (context : DiagnosticContext) : DiagnosticScopes :=
  ⟨context, scopes.current :: scopes.previous⟩

/-- Open a scope with one more attribute. -/
def enterWith (scopes : DiagnosticScopes) (key value : String) : DiagnosticScopes :=
  scopes.enter (scopes.current.insert key value)

/-- Close the innermost scope, if one is open. -/
def leave (scopes : DiagnosticScopes) : DiagnosticScopes :=
  match scopes.previous with
  | [] => scopes
  | context :: rest => ⟨context, rest⟩

end DiagnosticScopes

end StateTree
