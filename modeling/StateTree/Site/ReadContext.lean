/-
Module: StateTree.Site.ReadContext
Purpose: Read contexts. A context pins one snapshot of one site to a thread until it is left; what
  is read of that site on the thread meanwhile is read in the snapshot. Entering a context inside
  another one of the site goes on with the snapshot there is, replacing does not.
-/
import StateTree.Node.Basic

namespace StateTree

/-- The snapshots that are pinned to a thread, by site. -/
structure Bindings where
  roots : List (Nat × Node)

/-- What leaving a context does to the binding of its site. -/
inductive Restore where
  /-- A surrounding context of the site stays bound. -/
  | nothing
  | unbind
  | rebind (root : Node)

/-- An open context of a site. -/
structure ReadContext where
  site : Nat
  root : Node
  restore : Restore

namespace Bindings

/-- No snapshot is pinned. -/
def none : Bindings := ⟨[]⟩

/-- The pinned snapshot of a site. -/
def root? (bindings : Bindings) (site : Nat) : Option Node := bindings.roots.lookup site

/-- Pin a snapshot. -/
def bind (bindings : Bindings) (site : Nat) (root : Node) : Bindings :=
  ⟨Keyed.put site root bindings.roots⟩

/-- Let go of the snapshot of a site. -/
def unbind (bindings : Bindings) (site : Nat) : Bindings := ⟨Keyed.drop site bindings.roots⟩

/-- Open a context, on the snapshot that is pinned already or else on the current one. -/
def enter (bindings : Bindings) (site : Nat) (current : Node) : ReadContext × Bindings :=
  match bindings.root? site with
  | some root => (⟨site, root, .nothing⟩, bindings)
  | .none => (⟨site, current, .unbind⟩, bindings.bind site current)

/-- Open a context on a snapshot of its own. -/
def replace (bindings : Bindings) (site : Nat) (root : Node) : ReadContext × Bindings :=
  let restore := ((bindings.root? site).map Restore.rebind).getD .unbind
  (⟨site, root, restore⟩, bindings.bind site root)

/-- Leave a context. Contexts are left in the reverse of the order they were opened in. -/
def leave (bindings : Bindings) (context : ReadContext) : Bindings :=
  match context.restore with
  | .nothing => bindings
  | .unbind => bindings.unbind context.site
  | .rebind root => bindings.bind context.site root

end Bindings

end StateTree
