/-
Module: StateTree.Accessor.Cache
Purpose: Which paths a resolver has resolved so far. Resolving a path resolves the domains on its
  way, and each of them counts once it succeeds; what fails is not remembered.
-/
import StateTree.Accessor.Basic

namespace StateTree

namespace Schema

/-- The domains that are resolved on the way along segments, up to where the way ends. -/
def domainsAlong (schema : Schema) (metBy : Path → List Path) (resolves : Path → Bool) :
    FieldType → List Segment → List Path
  | _, [] => []
  | type, segment :: rest =>
      let hasKey := segment.entryKey.isOk
      match type, segment with
      | .struct name, .name field =>
          match (schema.struct? name).bind fun struct => struct.field? field with
          | some declared => domainsAlong schema metBy resolves declared.type rest
          | none => []
      | .catalog entity, _ =>
          if hasKey then domainsAlong schema metBy resolves (.struct entity) rest else []
      | .listing domain, _ => if rest.isEmpty then metBy domain else []
      | .sideTable domain value, _ =>
          metBy domain ++
            if resolves domain && hasKey then domainsAlong schema metBy resolves value rest else []
      | _, _ => []

/-- The paths that resolving a path resolves, going through at most `depth` nested domains. -/
def resolvedBy (schema : Schema) : Nat → Path → List Path
  | 0, _ => []
  | depth + 1, path =>
      schema.domainsAlong (schema.resolvedBy depth)
          (fun domain => (schema.resolveWithin depth domain).isOk) schema.rootType path.segments
        ++ if (schema.resolveWithin (depth + 1) path).isOk then [path] else []

end Schema

/-- A schema with the paths resolved so far, each once. -/
structure Resolver where
  schema : Schema
  resolved : List Path

namespace Resolver

/-- A resolver that has resolved nothing. -/
def new (schema : Schema) : Resolver := ⟨schema, []⟩

/-- Resolve a path, remembering what was resolved. -/
def resolve (resolver : Resolver) (path : Path) : Except TreeError Accessor × Resolver :=
  let schema := resolver.schema
  let met := schema.resolvedBy (schema.domains.length + 1) path
  (schema.resolve path, ⟨schema, met.foldl (fun known path => known.insert path) resolver.resolved⟩)

end Resolver

end StateTree
