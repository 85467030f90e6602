/-
Module: StateTree.Schema.Basic
Purpose: Schemas: struct types by name, each with its fields in the order of declaration, and the
  name of the root's type.
-/
import StateTree.TreeError

namespace StateTree

/-- Whether a field has to be there. -/
inductive Presence where
  /-- Always there, never deleted. -/
  | required
  /-- May be absent, so it may be deleted. -/
  | optional
  /-- Required, but older trees may lack it; they are completed with the default. -/
  | polyfill (value : Node)
deriving DecidableEq

/-- Only optional fields may be deleted. -/
def Presence.isDeletable : Presence → Bool
  | .optional => true
  | _ => false

/-- The declaration of one field. -/
structure FieldDef where
  name : String
  type : FieldType
  presence : Presence
deriving DecidableEq

/-- The declaration of one struct type. -/
structure StructDef where
  name : String
  fields : List FieldDef
deriving DecidableEq

namespace StructDef

/-- The first declaration of a field. -/
def field? (struct : StructDef) (name : String) : Option FieldDef :=
  struct.fields.find? fun field => field.name == name

/-- Entities have a required identifier in a field `id`. -/
def isEntity (struct : StructDef) : Bool :=
  match struct.field? "id" with
  | some field => field.type == .identifier && field.presence == .required
  | none => false

end StructDef

/-- Struct types by name, in ascending order of the names, and the root's type. -/
structure Schema where
  root : String
  types : List (String × StructDef)
deriving DecidableEq

namespace Schema

/-- The root as a field type. -/
def rootType (schema : Schema) : FieldType := .struct schema.root

def struct? (schema : Schema) (name : String) : Option StructDef := schema.types.lookup name

/-- The declaration of a struct type that has to be there. -/
def requireStruct (schema : Schema) (name : String) : Except TreeError StructDef :=
  match schema.struct? name with
  | some struct => .ok struct
  | none => .error (.invalidSchema (.typeUndefined name))

/-- Every declared field with the struct type that declares it: types in ascending order of their
names, fields in the order of declaration. -/
def declarations (schema : Schema) : List (StructDef × FieldDef) :=
  schema.types.flatMap fun entry => entry.2.fields.map fun field => (entry.2, field)

end Schema

/-- The domains that a type names, at any depth that paths can reach. -/
def FieldType.domains : FieldType → List Path
  | .listing domain => [domain]
  | .sideTable domain value => domain :: value.domains
  | _ => []

/-- The domains that a schema's types name. -/
def Schema.domains (schema : Schema) : List Path :=
  schema.declarations.flatMap fun declaration => declaration.2.type.domains

end StateTree
