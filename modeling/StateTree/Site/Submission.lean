/-
Module: StateTree.Site.Submission
Purpose: Operations on references. All that can be told without the current tree is checked before
  an operation is submitted: that paths are bound, that values fit the schema and carry the
  identifier of their entry, and that nothing required is deleted. The rest is decided when the
  update applies.
-/
import StateTree.Site.Reference
import StateTree.Update

namespace StateTree.Reference

/-- The path of a precondition, which must not have parameters. -/
def precondition (reference : Reference) : Except TreeError Path :=
  if reference.isParameterized then .error (.malformedPath reference.path .unboundPrecondition)
  else .ok reference.path

/-- Store a value. -/
def replacement (target : Reference) (value : Node) : Except TreeError Operation := do
  target.accessor.checkValue target.schema value
  pure (.replacement target.path value)

/-- Store a value if another location holds the identifier required. -/
def conditionalReplacement (target : Reference) (value : Node) (condition : Reference)
    (required : Identifier) : Except TreeError Operation := do
  target.accessor.checkValue target.schema value
  let path ← condition.precondition
  pure (.conditionalReplacement target.path value path required)

/-- Store a value where nothing is yet. -/
def initialization (target : Reference) (value : Node) : Except TreeError Operation := do
  target.accessor.checkValue target.schema value
  pure (.initialization target.path value)

/-- Remove what is there. -/
def deletion (target : Reference) : Except TreeError Operation := do
  target.accessor.checkDeletable
  pure (.deletion target.path)

/-- Remove what is there if another location holds the identifier required. -/
def conditionalDeletion (target condition : Reference) (required : Identifier) :
    Except TreeError Operation := do
  target.accessor.checkDeletable
  let path ← condition.precondition
  pure (.conditionalDeletion target.path path required)

/-- The operation of a sort on a reference, if what it takes is there. -/
def operation? (target : Reference) (value : Option Node)
    (condition : Option (Reference × Identifier)) :
    OperationKind → Option (Except TreeError Operation)
  | .replacement => value.map target.replacement
  | .conditionalReplacement => do
      let value ← value
      let (precondition, required) ← condition
      pure (target.conditionalReplacement value precondition required)
  | .initialization => value.map target.initialization
  | .deletion => some target.deletion
  | .conditionalDeletion => do
      let (precondition, required) ← condition
      pure (target.conditionalDeletion precondition required)

end StateTree.Reference
