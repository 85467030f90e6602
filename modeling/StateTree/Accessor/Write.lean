/-
Module: StateTree.Accessor.Write
Purpose: Changing a tree through an accessor: storing a value, and deleting what is there. What can
  be checked without the tree is checked first: the path is bound, the value fits the schema, an
  entity carries the identifier of its entry, and what is deleted is not required.
-/
import StateTree.Accessor.Read
import StateTree.Schema.Validate

namespace StateTree

/-- Store a value at the end of steps from a node. Everything on the way has to be there. Storing
an entry of a listing lists its identifier. -/
def writeSteps (path : Path) : List Step → Node → Node → Except TreeError Node
  | [], _, value => .ok value
  | .field name _ :: rest, node, value => do
      let fields ← locate path node.asStruct
      let child ←
        if rest.isEmpty then pure value
        else do
          let current ← orNonexistent path (fields.get? name)
          writeSteps path rest current value
      pure (.struct (fields.insert name child))
  | .catalogEntry key :: rest, node, value => do
      let id ← orUnbound path key
      let entities ← locate path node.asCatalog
      let child ←
        if rest.isEmpty then pure value
        else do
          let current ← orNonexistent path (entities.get? id)
          writeSteps path rest current value
      pure (.catalog (entities.insert id child))
  | .listingEntry key _ _ :: _, node, _ => do
      let id ← orUnbound path key
      let listing ← locate path node.asListing
      pure (.listing (listing.insert id))
  | .tableEntry key _ _ :: rest, node, value => do
      let id ← orUnbound path key
      let table ← locate path node.asSideTable
      let child ←
        if rest.isEmpty then pure value
        else do
          let current ← orNonexistent path (table.get? id)
          writeSteps path rest current value
      pure (.sideTable (table.insert id child))

/-- Delete what is at the end of steps from a node; `none` when nothing is there. -/
def deleteSteps (path : Path) : List Step → Node → Except TreeError (Option Node)
  | [], _ => .ok none
  | .field name _ :: rest, node => do
      let fields ← locate path node.asStruct
      match fields.get? name with
      | none => pure none
      | some current =>
          if rest.isEmpty then pure (some (.struct (fields.erase name)))
          else do
            let child ← deleteSteps path rest current
            pure (child.map fun child => .struct (fields.insert name child))
  | .catalogEntry key :: rest, node => do
      let id ← orUnbound path key
      let entities ← locate path node.asCatalog
      match entities.get? id with
      | none => pure none
      | some current =>
          if rest.isEmpty then pure (some (.catalog (entities.erase id)))
          else do
            let child ← deleteSteps path rest current
            pure (child.map fun child => .catalog (entities.insert id child))
  | .listingEntry key _ _ :: _, node => do
      let id ← orUnbound path key
      let listing ← locate path node.asListing
      if listing.contains id then pure (some (.listing (listing.erase id))) else pure none
  | .tableEntry key _ _ :: rest, node => do
      let id ← orUnbound path key
      let table ← locate path node.asSideTable
      match table.get? id with
      | none => pure none
      | some current =>
          if rest.isEmpty then pure (some (.sideTable (table.erase id)))
          else do
            let child ← deleteSteps path rest current
            pure (child.map fun child => .sideTable (table.insert id child))

namespace Accessor

/-- Check that an entity carries the identifier of the entry it is stored under. -/
def checkEntry (accessor : Accessor) (value : Node) : Except TreeError Unit :=
  match accessor.steps.getLast? with
  | some (.catalogEntry key) | some (.listingEntry key _ _) =>
      if value.entityId? = key then .ok () else .error (.illegal accessor.path .entryOfAnother)
  | _ => .ok ()

/-- All that can be checked of storing a value without the tree. -/
def checkValue (accessor : Accessor) (schema : Schema) (value : Node) : Except TreeError Unit := do
  accessor.path.requireBound
  schema.validateAt accessor.target value accessor.path
  accessor.checkEntry value

/-- All that can be checked of a deletion without the tree. -/
def checkDeletable (accessor : Accessor) : Except TreeError Unit := do
  accessor.path.requireBound
  match accessor.steps.getLast? with
  | none => throw (.illegal accessor.path .deleteRoot)
  | some (.field name false) => throw (.illegal accessor.path (.deleteRequired name))
  | some _ => pure ()

/-- The tree with a value stored where the path leads. -/
def set (accessor : Accessor) (schema : Schema) (root value : Node) : Except TreeError Node := do
  accessor.checkValue schema value
  writeSteps accessor.path accessor.steps root value

/-- The tree with nothing where the path leads. Deleting what is not there leaves the tree. -/
def delete (accessor : Accessor) (root : Node) : Except TreeError Node := do
  accessor.checkDeletable
  let changed ← deleteSteps accessor.path accessor.steps root
  pure (changed.getD root)

end Accessor

end StateTree
