/-
Module: StateTree.Schema.Polyfill
Purpose: Completing trees that were written under an older schema: every missing field that has a
  default gets it, at any depth, and nothing else changes.
-/
import StateTree.Schema.Basic

namespace StateTree.Schema

/-- A completion that awaits the declared type of a node; `none` when nothing is missing. -/
abbrev Completion := FieldType → Option Node

/-- Complete the declared fields of a struct in the order of declaration, given a completion for
every field that is there. A field that has just been given a value is completed by `again` if it
is declared once more. -/
def completeDeclared (again : Node → Completion) (completions : List (String × Completion)) :
    List FieldDef → Fields Node → List String → Fields Node × List String
  | [], fields, changed => (fields, changed)
  | field :: rest, fields, changed =>
      let replacement :=
        match fields.get? field.name, field.presence with
        | some value, _ =>
            if field.name ∈ changed then again value field.type
            else (completions.lookup field.name).bind fun completion => completion field.type
        | none, .polyfill value => some value
        | none, _ => none
      match replacement with
      | some value =>
          completeDeclared again completions rest (fields.insert field.name value)
            (field.name :: changed)
      | none => completeDeclared again completions rest fields changed

mutual

/-- Complete a node of a declared type. -/
def complete (schema : Schema) (again : Node → Completion) : Node → Completion
  | .struct ⟨fields⟩, .struct type =>
      match schema.struct? type with
      | some struct =>
          match completeDeclared again (fieldCompletions schema again fields) struct.fields
              ⟨fields⟩ [] with
          | (_, []) => none
          | (completed, _ :: _) => some (.struct completed)
      | none => none
  | .catalog ⟨entries⟩, .catalog entity =>
      (completeEntries schema again entries (.struct entity)).map fun entries => .catalog ⟨entries⟩
  | .sideTable ⟨domain, entries⟩, .sideTable _ value =>
      (completeEntries schema again entries value).map fun entries => .sideTable ⟨domain, entries⟩
  | _, _ => none
termination_by structural node => node

/-- A completion for each field of a struct. -/
def fieldCompletions (schema : Schema) (again : Node → Completion) :
    List (String × Node) → List (String × Completion)
  | [] => []
  | (name, value) :: rest =>
      (name, complete schema again value) :: fieldCompletions schema again rest
termination_by structural fields => fields

/-- Complete the values of a container; `none` when nothing is missing from any. -/
def completeEntries (schema : Schema) (again : Node → Completion) :
    List (Identifier × Node) → FieldType → Option (List (Identifier × Node))
  | [], _ => none
  | (key, value) :: rest, type =>
      match complete schema again value type, completeEntries schema again rest type with
      | none, none => none
      | some completed, none => some ((key, completed) :: rest)
      | none, some more => some ((key, value) :: more)
      | some completed, some more => some ((key, completed) :: more)
termination_by structural entries => entries

end

/-- Complete a node, going back at most `rounds` times over a field that was just given a value. -/
def completeWithin (schema : Schema) : Nat → Node → Completion
  | 0 => complete schema fun _ _ => none
  | rounds + 1 => complete schema (completeWithin schema rounds)

/-- The tree with every missing field that has a default filled in. -/
def polyfill (schema : Schema) (root : Node) : Node :=
  (schema.completeWithin schema.declarations.length root schema.rootType).getD root

end StateTree.Schema
