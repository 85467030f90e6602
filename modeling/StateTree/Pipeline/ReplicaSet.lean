/-
Module: StateTree.Pipeline.ReplicaSet
Purpose: Sets of sites in one process that are kept in lockstep. An update submitted to a member
  goes to all of them, and who joins starts from the root of a member that runs already.
-/
import StateTree.Pipeline.Basic

namespace StateTree

/-- A site of a set, and the pipeline below the stage it joined with. -/
structure Member where
  site : Nat
  down : Pipeline

/-- The members, in the order they joined in. -/
structure ReplicaSet where
  members : List Member

namespace ReplicaSet

def empty : ReplicaSet := ⟨[]⟩

def size (set : ReplicaSet) : Nat := set.members.length

def isEmpty (set : ReplicaSet) : Bool := set.members.isEmpty

def join (set : ReplicaSet) (member : Member) : ReplicaSet := ⟨set.members ++ [member]⟩

/-- A site leaves the set. -/
def leave (set : ReplicaSet) (site : Nat) : ReplicaSet :=
  ⟨set.members.filter fun member => member.site != site⟩

/-- The first site of the set that runs, other than the one given. -/
def running? (set : ReplicaSet) (isRunning : Nat → Bool) (site : Nat) : Option Nat :=
  (set.members.find? fun member => member.site != site && isRunning member.site).map Member.site

/-- What updates to the set are handed on to. -/
def downs (set : ReplicaSet) : List Pipeline := set.members.map Member.down

end ReplicaSet

end StateTree
