/-
Module: StateTree.View.Record
Purpose: Views of application entities that are described by their fields: an identifier, and
  further fields, each with a reading of its own. Fields that the description does not name are
  passed over.
-/
import StateTree.View.Basic

namespace StateTree

/-- An entity as its identifier and the values of its other fields. -/
structure Record where
  id : Identifier
  values : List (String × Node)

/-- Read the described fields of a struct, in the order of the description. -/
def readFields (fields : Fields Node) :
    List (String × Reading) → Except TreeError (List (String × Node))
  | [] => .ok []
  | (name, reading) :: rest => do
      let node ← fields.require name
      let value ← reading.read node
      let values ← readFields fields rest
      pure ((name, value) :: values)

/-- Entities of the named struct type with an identifier in the field `id` and the other fields as
described. -/
def EntityView.record (type : String) (described : List (String × Reading)) :
    EntityView Record where
  kind := .struct type
  toNode record := .struct (.ofPairs (("id", .id record.id) :: record.values))
  ofNode node := do
    let fields ← node.asStruct
    let own ← fields.require "id"
    let id ← own.asId
    let values ← readFields fields described
    pure ⟨id, values⟩
  identity record := record.id

end StateTree
