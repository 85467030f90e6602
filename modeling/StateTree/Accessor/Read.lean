/-
Module: StateTree.Accessor.Read
Purpose: Reading through an accessor. An entry of a listing is the entity of that identifier in the
  domain's catalog; an entry of a side table is there only while its entity is.
-/
import StateTree.Accessor.Basic
import StateTree.Node.Shape

namespace StateTree

/-- A shape error, with the path at which it was met. -/
def TreeError.located (path : Path) : TreeError → TreeError
  | .invalidNode _ fault => .invalidNode (.location path) fault
  | error => error

/-- A result whose shape errors tell the path. -/
def locate {α : Type} (path : Path) : Except TreeError α → Except TreeError α
  | .ok value => .ok value
  | .error error => .error (error.located path)

/-- What has to be at a path. -/
def orNonexistent {α : Type} (path : Path) : Option α → Except TreeError α
  | some value => .ok value
  | none => .error (.nonexistent path)

/-- The identifier of an entry step. Paths are bound before anything is read or written through
them, so no parameter is left by then. -/
def orUnbound (path : Path) : Option Identifier → Except TreeError Identifier
  | some id => .ok id
  | none => .error (.malformedPath path .unboundParameters)

/-- Check that a path has no parameters left. -/
def Path.requireBound (path : Path) : Except TreeError Unit :=
  if path.isParameterized then .error (.malformedPath path .unboundParameters) else .ok ()

/-- What a domain holds, seen from `path`: where the domain is absent, so is what `path` names. -/
def domainCatalog (path : Path) : Except TreeError Node → Except TreeError (Catalog Node)
  | .ok node => locate path node.asCatalog
  | .error (.nonexistent _) => .error (.nonexistent path)
  | .error error => .error error

mutual

/-- Follow steps from a node of the tree `root`. -/
def readSteps (root : Node) (path : Path) : List Step → Node → Except TreeError Node
  | [], node => .ok node
  | step :: rest, node => do
      let next ← readStep root path step node
      readSteps root path rest next
termination_by structural steps => steps

/-- Follow one step from a node of the tree `root`. -/
def readStep (root : Node) (path : Path) : Step → Node → Except TreeError Node
  | .field name _, node => do
      let fields ← locate path node.asStruct
      orNonexistent path (fields.get? name)
  | .catalogEntry key, node => do
      let id ← orUnbound path key
      let entities ← locate path node.asCatalog
      orNonexistent path (entities.get? id)
  | .listingEntry key domain steps, node => do
      let id ← orUnbound path key
      let listing ← locate path node.asListing
      if listing.contains id then
        domain.requireBound
        let entities ← domainCatalog path (readSteps root domain steps root)
        orNonexistent path (entities.get? id)
      else throw (.nonexistent path)
  | .tableEntry key domain steps, node => do
      let id ← orUnbound path key
      let table ← locate path node.asSideTable
      let value ← orNonexistent path (table.get? id)
      domain.requireBound
      let entities ← domainCatalog path (readSteps root domain steps root)
      if entities.contains id then pure value else throw (.nonexistent path)
termination_by structural step => step

end

namespace Accessor

/-- The node that the path leads to in a tree. -/
def get (accessor : Accessor) (root : Node) : Except TreeError Node := do
  accessor.path.requireBound
  readSteps root accessor.path accessor.steps root

/-- Whether the path leads to anything in a tree. -/
def exists? (accessor : Accessor) (root : Node) : Bool := (accessor.get root).isOk

end Accessor

end StateTree
