/-
Module: StateTree.Schema.FieldType
Purpose: The declared types of locations, and the kinds of value that a typed reader asks for. A
  kind accepts the types of the locations it may be read from.
-/
import StateTree.Path.Text

namespace StateTree

/-- The declared type of a location. -/
inductive FieldType where
  | bool
  | int
  | str
  | identifier
  /-- A stored reference to a location of the type given. -/
  | reference (target : FieldType)
  /-- A struct of the named type. -/
  | struct (name : String)
  /-- A catalog of entities of the named struct type. -/
  | catalog (entity : String)
  /-- Identifiers of entities in the catalog at `domain`. -/
  | listing (domain : Path)
  /-- Values keyed by identifiers of entities in the catalog at `domain`. -/
  | sideTable (domain : Path) (value : FieldType)
deriving DecidableEq

namespace FieldType

/-- The name of a type as messages show it. -/
def text : FieldType → String
  | .bool => "bool"
  | .int => "int"
  | .str => "string"
  | .identifier => "identifier"
  | .reference target => s!"reference<{target.text}>"
  | .struct name => name
  | .catalog entity => s!"catalog<{entity}>"
  | .listing domain => s!"listing<{domain}>"
  | .sideTable domain value => s!"side table<{domain}, {value.text}>"

end FieldType

/-- What a typed reader expects at a location. -/
inductive Kind where
  /-- Untyped reading, which suits every location. -/
  | any
  | bool
  | int
  | str
  | identifier
  | reference
  | struct (name : String)
  | catalog (entry : Kind)
  | listing
  | sideTable (value : Kind)
deriving DecidableEq

namespace Kind

/-- The name of a kind as messages show it. -/
def text : Kind → String
  | .any => "any"
  | .bool => "bool"
  | .int => "int"
  | .str => "string"
  | .identifier => "identifier"
  | .reference => "reference"
  | .struct name => name
  | .catalog entry => s!"catalog<{entry.text}>"
  | .listing => "listing"
  | .sideTable value => s!"side table<{value.text}>"

/-- Whether values of this kind may be read from and written to a location of the type. -/
def accepts : Kind → FieldType → Bool
  | .any, _ => true
  | .bool, .bool => true
  | .int, .int => true
  | .str, .str => true
  | .identifier, .identifier => true
  | .reference, .reference _ => true
  | .listing, .listing _ => true
  | .struct name, .struct other => name == other
  | .catalog entry, .catalog entity => entry.accepts (.struct entity)
  | .sideTable value, .sideTable _ type => value.accepts type
  | _, _ => false

end Kind

end StateTree
