/-
Module: StateTree.Site.Basic
Purpose: A site, the place where a state tree lives: the current root, the hooks and the queue of
  work. An item of work is processed as a whole: it changes the root or does not, and says which
  hooks are to run where. Each of them reads the root that the item left.
-/
import StateTree.Site.Hook
import StateTree.Site.WorkQueue
import StateTree.Update

namespace StateTree

/-- An item of a site's work. -/
inductive WorkItem (κ : Type) where
  | apply (update : Update)
  /-- Run a new hook for all that is there already. -/
  | introduce (hook : Hook κ)

/-- A hook that is to run for a location, and the root it reads. -/
structure HookCall (κ : Type) where
  hook : Hook κ
  path : Path
  root : Node

/-- The place where a state tree lives. -/
structure Site (κ : Type) where
  name : String
  /-- Tells the site from all others, also from later ones of its name. -/
  identity : Identifier
  schema : Schema
  root : Node
  hooks : HookRegistry κ
  queue : WorkQueue (WorkItem κ)

namespace Site

variable {κ : Type}

/-- A site with nothing in it. -/
def new (name : String) (identity : Identifier) (schema : Schema) : Site κ :=
  ⟨name, identity, schema, .struct .empty, .empty, .empty⟩

/-- The runs of hooks that a change calls for, in their order. -/
def callsFor (site : Site κ) (before after : Node) (changed : Path) : List (HookCall κ) :=
  site.hooks.hooks.flatMap fun hook =>
    (hook.affected before after changed).map fun path => ⟨hook, path, after⟩

/-- Apply an update. One that fails or has no effect changes nothing and no hook runs. -/
def commit (site : Site κ) (update : Update) : Site κ × List (HookCall κ) :=
  match update.operation.apply site.schema site.root with
  | .ok (some after) =>
      ({ site with root := after }, site.callsFor site.root after update.target)
  | _ => (site, [])

/-- The runs of a new hook for all that is there already. -/
def introductions (site : Site κ) (hook : Hook κ) : List (HookCall κ) :=
  (hook.existing site.root).map fun path => ⟨hook, path, site.root⟩

/-- Process an item of work. -/
def process (site : Site κ) : WorkItem κ → Site κ × List (HookCall κ)
  | .apply update => site.commit update
  | .introduce hook => (site, site.introductions hook)

/-- Add an item of work, and tell whether to drain. -/
def enqueue (site : Site κ) (item : WorkItem κ) : Bool × Site κ :=
  let (drains, queue) := site.queue.enqueue item
  (drains, { site with queue := queue })

/-- Publish the first root and start to work, and tell whether to drain. -/
def start (site : Site κ) (root : Node) : Bool × Site κ :=
  let (drains, queue) := site.queue.start
  (drains, { site with root := root, queue := queue })

/-- Add a hook, and the item of work that introduces it. -/
def register (site : Site κ) (name : String) (scope : Accessor) (priority : Int) (payload : κ) :
    Bool × Site κ :=
  let (sequence, registry) := site.hooks.draw
  let hook : Hook κ := ⟨name, priority, sequence, scope, payload⟩
  { site with hooks := registry.insert hook }.enqueue (.introduce hook)

/-- The drainer takes the next item. -/
def take (site : Site κ) : Option (WorkItem κ) × Site κ :=
  let (item, queue) := site.queue.take
  (item, { site with queue := queue })

/-- The drainer is done with an item and takes the next one. -/
def finish (site : Site κ) : Option (WorkItem κ) × Site κ :=
  let (item, queue) := site.queue.finish
  (item, { site with queue := queue })

end Site

end StateTree
