/-
Module: StateTree.Schema.Build
Purpose: Building a schema from struct definitions. Every type that is named has to be defined,
  catalogs hold entities, domains are catalogs, and defaults fit their fields.
-/
import StateTree.Accessor.Basic
import StateTree.Schema.Validate

namespace StateTree

/-- Definitions on their way to a schema. -/
structure SchemaBuilder where
  root : String
  types : List (String × StructDef)

namespace SchemaBuilder

/-- No definitions yet. -/
def new (root : String) : SchemaBuilder := ⟨root, []⟩

/-- Add a definition; a later one of the same name replaces an earlier one. -/
def define (builder : SchemaBuilder) (struct : StructDef) : SchemaBuilder :=
  ⟨builder.root, Keyed.putSorted struct.name struct builder.types⟩

end SchemaBuilder

namespace Schema

/-- Check that the types a field's type names are there and fit. -/
def checkType (schema : Schema) (owner field : String) : FieldType → Except TreeError Unit
  | .struct name =>
      if (schema.struct? name).isSome then .ok ()
      else .error (.invalidSchema (.unknownType owner field name))
  | .catalog entity =>
      match schema.struct? entity with
      | none => .error (.invalidSchema (.unknownType owner field entity))
      | some struct =>
          if struct.isEntity then .ok ()
          else .error (.invalidSchema (.entityWithoutId owner field entity))
  | .reference target => schema.checkType owner field target
  | .sideTable _ value => schema.checkType owner field value
  | _ => .ok ()

/-- The domain of a field that is itself a listing or a side table. -/
def ownDomain? : FieldType → Option Path
  | .listing domain => some domain
  | .sideTable domain _ => some domain
  | _ => none

/-- Check that the domain of a field has no parameters and is a catalog. -/
def checkDomain (schema : Schema) (owner field : String) (domain : Path) :
    Except TreeError Unit :=
  if domain.isParameterized then .error (.invalidSchema (.domainParameters owner field domain))
  else
    match schema.resolve domain with
    | .error cause => .error (.invalidSchema (.domainUnresolved owner field cause))
    | .ok accessor =>
        match accessor.target with
        | .catalog _ => .ok ()
        | _ => .error (.invalidSchema (.domainNotCatalog owner field domain))

/-- Check that the default of a field is a value of its type. -/
def checkDefault (schema : Schema) (owner : String) (field : FieldDef) : Except TreeError Unit :=
  match field.presence with
  | .polyfill value =>
      match schema.validateAt field.type value (Path.root.field field.name) with
      | .ok () => .ok ()
      | .error cause => .error (.invalidSchema (.badPolyfill owner field.name cause))
  | _ => .ok ()

end Schema

/-- The finished schema, after three rounds over all fields: their types, their domains, and their
defaults. -/
def SchemaBuilder.build (builder : SchemaBuilder) : Except TreeError Schema := do
  let schema : Schema := ⟨builder.root, builder.types⟩
  if (schema.struct? schema.root).isSome then pure ()
  else throw (.invalidSchema (.rootUndefined schema.root))
  schema.declarations.forM fun (struct, field) =>
    schema.checkType struct.name field.name field.type
  schema.declarations.forM fun (struct, field) =>
    match Schema.ownDomain? field.type with
    | some domain => schema.checkDomain struct.name field.name domain
    | none => pure ()
  schema.declarations.forM fun (struct, field) => schema.checkDefault struct.name field
  pure schema

end StateTree
