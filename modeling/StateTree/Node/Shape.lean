/-
Module: StateTree.Node.Shape
Purpose: Reading a node as the shape it is expected to have, and catalogs of entity nodes.
-/
import StateTree.TreeError

namespace StateTree

namespace Node

/-- The error of meeting a node where another shape is expected. -/
def shapeError (node : Node) (expected : String) : TreeError :=
  .invalidNode .nowhere (.shape expected node.shapeName)

def asBool : Node → Except TreeError Bool
  | .bool value => .ok value
  | node => .error (node.shapeError "bool")

def asInt : Node → Except TreeError Int64
  | .int value => .ok value
  | node => .error (node.shapeError "int")

def asStr : Node → Except TreeError String
  | .str value => .ok value
  | node => .error (node.shapeError "string")

def asId : Node → Except TreeError Identifier
  | .id value => .ok value
  | node => .error (node.shapeError "identifier")

def asRef : Node → Except TreeError Path
  | .ref target => .ok target
  | node => .error (node.shapeError "reference")

def asStruct : Node → Except TreeError (Fields Node)
  | .struct fields => .ok fields
  | node => .error (node.shapeError "struct")

def asCatalog : Node → Except TreeError (Catalog Node)
  | .catalog entities => .ok entities
  | node => .error (node.shapeError "catalog")

def asListing : Node → Except TreeError Listing
  | .listing ids => .ok ids
  | node => .error (node.shapeError "listing")

def asSideTable : Node → Except TreeError (SideTable Node)
  | .sideTable table => .ok table
  | node => .error (node.shapeError "side table")

/-- A short description of a node: leaves are written out, the rest is counted. -/
def summary : Node → String
  | .bool value => toString value
  | .int value => toString value.toInt
  | .str value => Text.quoted value
  | .id value => s!"#{value}"
  | .ref target => s!"&{target}"
  | .struct fields => s!"struct({fields.size} fields)"
  | .catalog entities => s!"catalog({entities.size} entries)"
  | .listing ids => s!"listing({ids.size} ids)"
  | .sideTable table => s!"side table({table.size} entries)"

/-- Entity nodes as a catalog, each under the identifier in its own `id` field. -/
def catalogOf (entities : List Node) : Except TreeError (Catalog Node) :=
  entities.foldlM (fun known entity =>
    match entity.entityId? with
    | some own => .ok (known.insert own entity)
    | none => .error (.invalidNode .nowhere .entityWithoutId)) .empty

end Node

/-- A field that has to be there. -/
def Fields.require (fields : Fields Node) (name : String) : Except TreeError Node :=
  match fields.get? name with
  | some value => .ok value
  | none => .error (.invalidNode .nowhere (.missingField name))

end StateTree
