/-
Module: StateTree.Node.Basic
Purpose: The dynamic values of a state tree. Every snapshot is one node. A node carries no type
  names: what may stand where is a matter of the schema.
-/
import StateTree.Container.Fields
import StateTree.Container.Listing
import StateTree.Container.SideTable

namespace StateTree

/-- A value anywhere in a state tree. -/
inductive Node where
  | bool (value : Bool)
  | int (value : Int64)
  | str (value : String)
  | id (value : Identifier)
  /-- A stored reference to another location of the same tree. -/
  | ref (target : Path)
  | struct (fields : Fields Node)
  | catalog (entities : Catalog Node)
  | listing (ids : Listing)
  | sideTable (table : SideTable Node)

namespace Node

mutual

/-- Equality of nodes as a test. The order of entries and listed identifiers counts. -/
def same : Node → Node → Bool
  | .bool a, .bool b => a == b
  | .int a, .int b => a == b
  | .str a, .str b => a == b
  | .id a, .id b => a == b
  | .ref a, .ref b => a == b
  | .struct ⟨a⟩, .struct ⟨b⟩ => sameFields a b
  | .catalog ⟨a⟩, .catalog ⟨b⟩ => sameEntries a b
  | .listing a, .listing b => a == b
  | .sideTable ⟨d, a⟩, .sideTable ⟨e, b⟩ => d == e && sameEntries a b
  | _, _ => false
termination_by structural node => node

/-- `same` for the fields of two structs. -/
def sameFields : List (String × Node) → List (String × Node) → Bool
  | [], [] => true
  | (k, v) :: rest, (l, w) :: more => k == l && v.same w && sameFields rest more
  | _, _ => false
termination_by structural fields => fields

/-- `same` for the entries of two containers. -/
def sameEntries : List (Identifier × Node) → List (Identifier × Node) → Bool
  | [], [] => true
  | (k, v) :: rest, (l, w) :: more => k == l && v.same w && sameEntries rest more
  | _, _ => false
termination_by structural entries => entries

end

mutual

theorem same_iff : ∀ a b : Node, a.same b = true ↔ a = b
  | .bool a, b => by cases b <;> simp [same]
  | .int a, b => by cases b <;> simp [same]
  | .str a, b => by cases b <;> simp [same]
  | .id a, b => by cases b <;> simp [same]
  | .ref a, b => by cases b <;> simp [same]
  | .listing a, b => by cases b <;> simp [same]
  | .struct ⟨a⟩, b => by
      cases b <;> simp [same]
      rename_i fields
      cases fields
      simp [sameFields_iff a]
  | .catalog ⟨a⟩, b => by
      cases b <;> simp [same]
      rename_i catalog
      cases catalog
      simp [sameEntries_iff a]
  | .sideTable ⟨d, a⟩, b => by
      cases b <;> simp [same]
      rename_i table
      cases table
      simp [sameEntries_iff a]

theorem sameFields_iff : ∀ a b : List (String × Node), sameFields a b = true ↔ a = b
  | [], b => by cases b <;> simp [sameFields]
  | (k, v) :: rest, [] => by simp [sameFields]
  | (k, v) :: rest, (l, w) :: more => by
      simp [sameFields, same_iff v, sameFields_iff rest, and_assoc]

theorem sameEntries_iff : ∀ a b : List (Identifier × Node), sameEntries a b = true ↔ a = b
  | [], b => by cases b <;> simp [sameEntries]
  | (k, v) :: rest, [] => by simp [sameEntries]
  | (k, v) :: rest, (l, w) :: more => by
      simp [sameEntries, same_iff v, sameEntries_iff rest, and_assoc]

end

instance : DecidableEq Node := fun a b => decidable_of_iff _ (same_iff a b)

instance : Inhabited Node where
  default := .bool false

/-- The short name of a node's shape. -/
def shapeName : Node → String
  | .bool _ => "bool"
  | .int _ => "int"
  | .str _ => "string"
  | .id _ => "identifier"
  | .ref _ => "reference"
  | .struct _ => "struct"
  | .catalog _ => "catalog"
  | .listing _ => "listing"
  | .sideTable _ => "side table"

/-- Whether a node is a leaf: neither a struct nor a container. -/
def isPrimitive : Node → Bool
  | .bool _ | .int _ | .str _ | .id _ | .ref _ => true
  | _ => false

/-- The identifier in a struct's `id` field. -/
def entityId? : Node → Option Identifier
  | .struct fields =>
      match fields.get? "id" with
      | some (.id own) => some own
      | _ => none
  | _ => none

end Node

end StateTree
