/-
Module: StateTree.Accessor.Enumerate
Purpose: The locations in a tree that a path with parameters stands for, in the order of the
  containers. Identifiers in listings and side tables count even when they dangle.
-/
import StateTree.Accessor.Basic

namespace StateTree

/-- Whether an entry step leads to the entry of this identifier. -/
def leadsTo (key : Option Identifier) (id : Identifier) : Bool :=
  match key with
  | none => true
  | some wanted => wanted == id

/-- The paths below `path` to which steps from a node lead. -/
def locations : List Step → Node → Path → List Path
  | [], _, path => [path]
  | .field name _ :: rest, .struct fields, path =>
      match fields.get? name with
      | some child => locations rest child (path.field name)
      | none => []
  | .catalogEntry key :: rest, .catalog entities, path =>
      (entities.entries.filter fun entry => leadsTo key entry.1).flatMap fun entry =>
        locations rest entry.2 (path.entry entry.1)
  | .listingEntry key _ _ :: _, .listing listing, path =>
      (listing.ids.filter (leadsTo key)).map path.entry
  | .tableEntry key _ _ :: rest, .sideTable table, path =>
      (table.entries.filter fun entry => leadsTo key entry.1).flatMap fun entry =>
        locations rest entry.2 (path.entry entry.1)
  | _ :: _, _, _ => []

/-- Every location in a tree that the path stands for. -/
def Accessor.enumerate (accessor : Accessor) (root : Node) : List Path :=
  locations accessor.steps root .root

end StateTree
