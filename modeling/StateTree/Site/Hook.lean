/-
Module: StateTree.Site.Hook
Purpose: Hooks and the order they run in. A hook runs for each location that its scope stands for
  and that an update has touched. Of two hooks the one of the higher priority runs first, and of
  equals the one that was registered first.
-/
import StateTree.Accessor.Enumerate

namespace StateTree

/-- A registered hook. What it does when it runs is up to the payload. -/
structure Hook (κ : Type) where
  name : String
  priority : Int
  /-- The place in the order of registration. -/
  sequence : Nat
  scope : Accessor
  payload : κ

/-- The elements of a list without repetitions, each where it comes first. -/
def firstOccurrences {α : Type} [BEq α] : List α → List α
  | [] => []
  | x :: rest => x :: (firstOccurrences rest).filter (· != x)

namespace Hook

variable {κ : Type}

/-- The locations of the scope that a change touches. Both trees count, so that deletions are seen;
those of the tree after the change come first. -/
def affected (hook : Hook κ) (before after : Node) (changed : Path) : List Path :=
  firstOccurrences ((hook.scope.enumerate after ++ hook.scope.enumerate before).filter
    fun path => path.overlaps changed)

/-- The locations of the scope in a tree. -/
def existing (hook : Hook κ) (root : Node) : List Path := hook.scope.enumerate root

/-- Whether one hook runs before another. -/
def precedes (hook other : Hook κ) : Bool :=
  decide (other.priority < hook.priority)
    || (hook.priority == other.priority && decide (hook.sequence < other.sequence))

end Hook

/-- The hooks of a site in the order they run in, and how many places in the order of registration
were given out. -/
structure HookRegistry (κ : Type) where
  hooks : List (Hook κ)
  drawn : Nat

namespace HookRegistry

variable {κ : Type}

def empty : HookRegistry κ := ⟨[], 0⟩

/-- Give out the next place in the order of registration. -/
def draw (registry : HookRegistry κ) : Nat × HookRegistry κ :=
  (registry.drawn, { registry with drawn := registry.drawn + 1 })

/-- A list of hooks with one more, before the first that it precedes. -/
def place (hook : Hook κ) : List (Hook κ) → List (Hook κ)
  | [] => [hook]
  | other :: rest =>
      if hook.precedes other then hook :: other :: rest else other :: place hook rest

/-- Add a hook where it belongs. -/
def insert (registry : HookRegistry κ) (hook : Hook κ) : HookRegistry κ :=
  { registry with hooks := place hook registry.hooks }

end HookRegistry

end StateTree
