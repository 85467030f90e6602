/-
Module: StateTree.TreeError
Purpose: What can go wrong in building a schema, resolving a path and reading or changing a tree.
  Each error names its cause; `message` has the wording.
-/
import StateTree.Node.Basic
import StateTree.Schema.FieldType

namespace StateTree

/-- Why a path leads nowhere in a schema, or cannot be used as it is. -/
inductive PathFault where
  /-- A parameter stands where a field of a struct type is expected. -/
  | parameterForField (index : Nat) (type : String)
  | noField (type field : String)
  | listingEntryNotLast
  | listingDomainNotCatalog
  /-- The path goes on below a location that has nothing below it. -/
  | notNavigable (type : FieldType) (index : Nat)
  | unboundParameters
  | unboundPrecondition
  | noInstance (pattern : Path)
deriving DecidableEq

/-- Where a malformed node was met. -/
inductive Place where
  /-- Outside any tree. -/
  | nowhere
  | location (path : Path)
  /-- At an entry of a container that stands outside any tree. -/
  | entry (key : Identifier)
deriving DecidableEq

/-- What is wrong with a node. -/
inductive NodeFault where
  /-- A node of one shape stands where another is expected. -/
  | shape (expected found : String)
  | missingField (field : String)
  | entityWithoutId
  /-- A typed entity has another identifier than its key. -/
  | keyOfAnother (own : Identifier)
  /-- An entity in a tree has another identifier than its key, or none. -/
  | keyMismatch
  | listingDomain (found expected : Path)
  | sideTableDomain (found expected : Path)
  | requiredField (type field : String)
  | undeclaredField (type field : String)
deriving DecidableEq

/-- What the schema does not permit. -/
inductive OperationFault where
  | entryOfAnother
  | deleteRoot
  | deleteRequired (field : String)
deriving DecidableEq

/-- What is inconsistent about a schema. Causes inside it are of the type `ε`. -/
inductive SchemaFault (ε : Type) where
  | rootUndefined (root : String)
  | typeUndefined (type : String)
  | unknownType (owner field type : String)
  | entityWithoutId (owner field type : String)
  | domainParameters (owner field : String) (domain : Path)
  | domainUnresolved (owner field : String) (cause : ε)
  | domainNotCatalog (owner field : String) (domain : Path)
  | badPolyfill (owner field : String) (cause : ε)
  /-- Resolving a domain leads back to the domain itself. -/
  | domainCycle (domain : Path)

/-- Errors of schemas and of trees under a schema. -/
inductive TreeError where
  | malformedPath (path : Path) (fault : PathFault)
  | typeMismatch (path : Path) (expected : Kind) (actual : FieldType)
  /-- Nothing around a location is of the kind asked for. -/
  | noEnclosing (path : Path) (kind : Kind)
  | nonexistent (path : Path)
  | illegal (path : Path) (fault : OperationFault)
  | invalidNode (place : Place) (fault : NodeFault)
  | codec
  | invalidSchema (fault : SchemaFault TreeError)
  | pathError (error : PathError)

open Text in
def PathFault.message : PathFault → String
  | .parameterForField index type =>
      s!"parameter at segment {index} where a field of {type} is expected"
  | .noField type field => s!"{type} has no field {quoted field}"
  | .listingEntryNotLast => "a listing entry must be the last segment"
  | .listingDomainNotCatalog => "listing domain is not a catalog"
  | .notNavigable type index => s!"cannot navigate into a {type.text} at segment {index}"
  | .unboundParameters => "path has unbound parameters"
  | .unboundPrecondition => "precondition has unbound parameters"
  | .noInstance pattern => s!"does not match {pattern}"

def Place.text : Place → String
  | .nowhere => "?"
  | .location path => path.render
  | .entry key => key.text

open Text in
def NodeFault.message : NodeFault → String
  | .shape expected found => s!"expected {expected}, found {found}"
  | .missingField field => s!"missing field {quoted field}"
  | .entityWithoutId => "catalog entry has no id field"
  | .keyOfAnother own => s!"catalog key does not match entity id {own}"
  | .keyMismatch => "catalog key does not match the entity's id"
  | .listingDomain found expected => s!"listing domain {found} should be {expected}"
  | .sideTableDomain found expected => s!"side table domain {found} should be {expected}"
  | .requiredField type field => s!"{type} is missing required field {quoted field}"
  | .undeclaredField type field => s!"{type} has no field {quoted field}"

open Text in
def OperationFault.message : OperationFault → String
  | .entryOfAnother => "entity id does not match its entry key"
  | .deleteRoot => "cannot delete the root"
  | .deleteRequired field => s!"field {quoted field} is required"

/-- The text of an error. -/
def TreeError.message : TreeError → String
  | .malformedPath path fault => s!"malformed path {path}: {fault.message}"
  | .typeMismatch path expected actual =>
      s!"type mismatch at {path}: expected {expected.text}, schema has {actual.text}"
  | .noEnclosing path kind =>
      s!"type mismatch at {path}: expected an enclosing {kind.text}, schema has none"
  | .nonexistent path => s!"nonexistent entry: {path}"
  | .illegal path fault => s!"illegal operation on {path}: {fault.message}"
  | .invalidNode place fault => s!"invalid node at {place.text}: {fault.message}"
  | .codec => "codec error: malformed data"
  | .invalidSchema (.rootUndefined root) => s!"invalid schema: root type {root} is not defined"
  | .invalidSchema (.typeUndefined type) => s!"invalid schema: type {type} is not defined"
  | .invalidSchema (.unknownType owner field type) =>
      s!"invalid schema: {owner}.{field}: unknown type {type}"
  | .invalidSchema (.entityWithoutId owner field type) =>
      s!"invalid schema: {owner}.{field}: catalog entry type {type} has no required id field"
  | .invalidSchema (.domainParameters owner field domain) =>
      s!"invalid schema: {owner}.{field}: domain {domain} must not have parameters"
  | .invalidSchema (.domainUnresolved owner field cause) =>
      s!"invalid schema: {owner}.{field}: {cause.message}"
  | .invalidSchema (.domainNotCatalog owner field domain) =>
      s!"invalid schema: {owner}.{field}: domain {domain} is not a catalog"
  | .invalidSchema (.badPolyfill owner field cause) =>
      s!"invalid schema: {owner}.{field}: bad polyfill: {cause.message}"
  | .invalidSchema (.domainCycle domain) =>
      s!"invalid schema: domain {domain} leads through itself"
  | .pathError error => error.message

/-- Whether an error says that nothing is there, and no more than that. -/
def TreeError.isNonexistent : TreeError → Bool
  | .nonexistent _ => true
  | _ => false

end StateTree
