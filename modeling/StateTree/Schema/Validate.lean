/-
Module: StateTree.Schema.Validate
Purpose: Whether a node is a legal value of a type. Fields are checked in the order of declaration,
  entries in the order of their container; the first fault is reported with the path to it.
-/
import StateTree.Schema.Basic

namespace StateTree.Schema

/-- A check that awaits the declared type of a node and the path to it. -/
abbrev Check := FieldType → Path → Except TreeError Unit

/-- Check the declared fields of a struct, given a check for every field that is there. -/
def checkDeclared (type : String) (checks : List (String × Check)) (path : Path) :
    List FieldDef → Except TreeError Unit
  | [] => .ok ()
  | field :: rest => do
      match checks.lookup field.name with
      | some check => check field.type (path.field field.name)
      | none =>
          if field.presence.isDeletable then pure ()
          else throw (.invalidNode (.location path) (.requiredField type field.name))
      checkDeclared type checks path rest

/-- Check that every field that is there is declared. -/
def checkKnown (struct : StructDef) (type : String) (path : Path) :
    List String → Except TreeError Unit
  | [] => .ok ()
  | name :: rest =>
      if (struct.field? name).isSome then checkKnown struct type path rest
      else .error (.invalidNode (.location path) (.undeclaredField type name))

mutual

/-- Check that a node is a legal value of a type. The path serves messages only. -/
def check (schema : Schema) : Node → Check
  | .bool _, .bool, _ => .ok ()
  | .int _, .int, _ => .ok ()
  | .str _, .str, _ => .ok ()
  | .id _, .identifier, _ => .ok ()
  | .ref _, .reference _, _ => .ok ()
  | .struct ⟨fields⟩, .struct type, path => do
      let struct ← schema.requireStruct type
      checkDeclared type (fieldChecks schema fields) path struct.fields
      checkKnown struct type path (Keyed.keys fields)
  | .catalog ⟨entries⟩, .catalog entity, path => checkEntities schema entries entity path
  | .listing ids, .listing domain, path =>
      if ids.domain = domain then .ok ()
      else .error (.invalidNode (.location path) (.listingDomain ids.domain domain))
  | .sideTable ⟨found, entries⟩, .sideTable domain value, path =>
      if found = domain then checkValues schema entries value path
      else .error (.invalidNode (.location path) (.sideTableDomain found domain))
  | node, type, path => .error (.invalidNode (.location path) (.shape type.text node.shapeName))
termination_by structural node => node

/-- A check for each field of a struct. -/
def fieldChecks (schema : Schema) : List (String × Node) → List (String × Check)
  | [] => []
  | (name, value) :: rest => (name, check schema value) :: fieldChecks schema rest
termination_by structural fields => fields

/-- Check the entities of a catalog, each of which has to carry its key. -/
def checkEntities (schema : Schema) :
    List (Identifier × Node) → String → Path → Except TreeError Unit
  | [], _, _ => .ok ()
  | (key, value) :: rest, entity, path => do
      check schema value (.struct entity) (path.entry key)
      if value.entityId? = some key then pure ()
      else throw (.invalidNode (.location (path.entry key)) .keyMismatch)
      checkEntities schema rest entity path
termination_by structural entries => entries

/-- Check the values of a side table. -/
def checkValues (schema : Schema) :
    List (Identifier × Node) → FieldType → Path → Except TreeError Unit
  | [], _, _ => .ok ()
  | (key, value) :: rest, type, path => do
      check schema value type (path.entry key)
      checkValues schema rest type path
termination_by structural entries => entries

end

/-- Check that a node is a legal value of a type. The path serves messages only. -/
def validateAt (schema : Schema) (type : FieldType) (node : Node) (path : Path) :
    Except TreeError Unit :=
  schema.check node type path

/-- Check a whole tree. -/
def validate (schema : Schema) (root : Node) : Except TreeError Unit :=
  schema.validateAt schema.rootType root .root

/-- A legal tree of the schema. -/
def Valid (schema : Schema) (root : Node) : Prop := schema.validate root = .ok ()

end StateTree.Schema
