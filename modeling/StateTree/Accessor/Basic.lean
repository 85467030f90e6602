/-
Module: StateTree.Accessor.Basic
Purpose: Accessors, paths resolved against a schema: one step per segment, and the type at the end.
  Resolving a path below a listing or a side table resolves the path of its domain too.
-/
import StateTree.Schema.Basic

namespace StateTree

/-- One step of an accessor. A step to an entry has the entry's identifier, or `none` where the
path has a parameter. Steps into listings and side tables carry the domain's path and steps. -/
inductive Step where
  | field (name : String) (deletable : Bool)
  | catalogEntry (key : Option Identifier)
  | listingEntry (key : Option Identifier) (domain : Path) (steps : List Step)
  | tableEntry (key : Option Identifier) (domain : Path) (steps : List Step)

/-- A path resolved against a schema. -/
structure Accessor where
  path : Path
  steps : List Step
  /-- The type of what the path leads to. -/
  target : FieldType

namespace Accessor

/-- Check that values of a kind belong where the path leads. -/
def checkKind (accessor : Accessor) (kind : Kind) : Except TreeError Unit :=
  if kind.accepts accessor.target then .ok ()
  else .error (.typeMismatch accessor.path kind accessor.target)

end Accessor

/-- The key of an entry that a segment names; a parameter names none. -/
def Segment.entryKey : Segment → Except TreeError (Option Identifier)
  | .name text =>
      match Identifier.ofString text with
      | .ok id => .ok (some id)
      | .error error => .error (.pathError error)
  | .parameter _ => .ok none

namespace Schema

/-- One step from a location of type `type`, by the segment at `index` of `path`. -/
def stepInto (schema : Schema) (domainAt : Path → Except TreeError Accessor) (path : Path)
    (index : Nat) (type : FieldType) (segment : Segment) (isLast : Bool) :
    Except TreeError (Step × FieldType) :=
  match type with
  | .struct name =>
      match segment with
      | .parameter _ => .error (.malformedPath path (.parameterForField index name))
      | .name field => do
          let struct ← schema.requireStruct name
          match struct.field? field with
          | some declared => pure (.field field declared.presence.isDeletable, declared.type)
          | none => throw (.malformedPath path (.noField name field))
  | .catalog entity => do
      let key ← segment.entryKey
      pure (.catalogEntry key, .struct entity)
  | .listing domain =>
      if isLast then do
        let resolved ← domainAt domain
        match resolved.target with
        | .catalog entity =>
            let key ← segment.entryKey
            pure (.listingEntry key domain resolved.steps, .struct entity)
        | _ => throw (.malformedPath path .listingDomainNotCatalog)
      else .error (.malformedPath path .listingEntryNotLast)
  | .sideTable domain value => do
      let resolved ← domainAt domain
      let key ← segment.entryKey
      pure (.tableEntry key domain resolved.steps, value)
  | other => .error (.malformedPath path (.notNavigable other index))

/-- The steps from a location of type `type` along segments, and the type they end at. -/
def stepsAlong (schema : Schema) (domainAt : Path → Except TreeError Accessor) (path : Path) :
    Nat → FieldType → List Segment → Except TreeError (List Step × FieldType)
  | _, type, [] => .ok ([], type)
  | index, type, segment :: rest => do
      let (step, next) ← schema.stepInto domainAt path index type segment rest.isEmpty
      let (steps, target) ← stepsAlong schema domainAt path (index + 1) next rest
      pure (step :: steps, target)

/-- Resolve a path, going through at most `depth` domains nested in one another. -/
def resolveWithin (schema : Schema) : Nat → Path → Except TreeError Accessor
  | 0, path => .error (.invalidSchema (.domainCycle path))
  | depth + 1, path => do
      let (steps, target) ←
        schema.stepsAlong (schema.resolveWithin depth) path 0 schema.rootType path.segments
      pure ⟨path, steps, target⟩

/-- Resolve a path. A chain of domains that is longer than there are domains leads through one of
them twice, so the bound cuts off cycles only. -/
def resolve (schema : Schema) (path : Path) : Except TreeError Accessor :=
  schema.resolveWithin (schema.domains.length + 1) path

/-- Resolve a path and check that values of a kind belong there. -/
def resolveAs (schema : Schema) (path : Path) (kind : Kind) : Except TreeError Accessor := do
  let accessor ← schema.resolve path
  accessor.checkKind kind
  pure accessor

end Schema

end StateTree
