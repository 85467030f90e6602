/-
Module: StateTree.View.Basic
Purpose: Typed views of nodes. A view ties a type to nodes in both directions and tells the kind of
  location it may be used at. Views of entities also tell an entity's identifier.
-/
import StateTree.Node.Shape

namespace StateTree

/-- A type of values that can be stored in a tree. -/
structure View (α : Type) where
  kind : Kind
  toNode : α → Node
  ofNode : Node → Except TreeError α

/-- A view of values that know their own identifier. -/
structure EntityView (α : Type) extends View α where
  identity : α → Identifier

/-- What is left of a view when its type is forgotten: the kind, and reading a node as a value and
writing that value as a node again. -/
structure Reading where
  kind : Kind
  read : Node → Except TreeError Node

namespace View

/-- Every node as it is. -/
def node : View Node := ⟨.any, id, .ok⟩

def bool : View Bool := ⟨.bool, .bool, Node.asBool⟩

def int : View Int64 := ⟨.int, .int, Node.asInt⟩

def str : View String := ⟨.str, .str, Node.asStr⟩

def identifier : View Identifier := ⟨.identifier, .id, Node.asId⟩

/-- Stored references are read as plain paths. -/
def reference : View Path := ⟨.reference, .ref, Node.asRef⟩

def listing : View Listing := ⟨.listing, .listing, Node.asListing⟩

variable {α : Type}

/-- Catalogs of entities. Each entity has to carry the identifier it is stored under. -/
def catalog (view : EntityView α) : View (Catalog α) where
  kind := .catalog view.kind
  toNode entities := .catalog (entities.map view.toNode)
  ofNode node := do
    let nodes ← node.asCatalog
    let entities ← nodes.tryMap view.ofNode
    match entities.entries.find? fun entry => view.identity entry.2 != entry.1 with
    | some entry => throw (.invalidNode (.entry entry.1) (.keyOfAnother (view.identity entry.2)))
    | none => pure entities

/-- Side tables of values. -/
def sideTable (view : View α) : View (SideTable α) where
  kind := .sideTable view.kind
  toNode table := .sideTable (table.map view.toNode)
  ofNode node := do
    let table ← node.asSideTable
    table.tryMap view.ofNode

/-- A view without its type. -/
def reading (view : View α) : Reading where
  kind := view.kind
  read node := do
    let value ← view.ofNode node
    pure (view.toNode value)

end View

end StateTree
