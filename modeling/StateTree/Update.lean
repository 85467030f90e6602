/-
Module: StateTree.Update
Purpose: Updates, the only way a state tree changes. Applying one gives a new root, or nothing when
  it has no effect: when its precondition is not met, when it initializes what is there already,
  when it replaces under something absent, or when it deletes what is not there.
-/
import StateTree.Accessor.Write
import StateTree.Diagnostics

namespace StateTree

/-- What an update does. -/
inductive Operation where
  /-- Store a value. -/
  | replacement (target : Path) (value : Node)
  /-- Store a value if a location holds the identifier required. -/
  | conditionalReplacement (target : Path) (value : Node) (precondition : Path)
      (required : Identifier)
  /-- Store a value where nothing is yet. -/
  | initialization (target : Path) (value : Node)
  /-- Remove what is there. -/
  | deletion (target : Path)
  /-- Remove what is there if a location holds the identifier required. -/
  | conditionalDeletion (target : Path) (precondition : Path) (required : Identifier)
deriving DecidableEq

/-- The sorts of operation. -/
inductive OperationKind where
  | replacement
  | conditionalReplacement
  | initialization
  | deletion
  | conditionalDeletion
deriving DecidableEq

namespace OperationKind

def all : List OperationKind :=
  [.replacement, .conditionalReplacement, .initialization, .deletion, .conditionalDeletion]

/-- The name of a sort of operation as messages show it. -/
def name : OperationKind → String
  | .replacement => "replacement"
  | .conditionalReplacement => "conditional replacement"
  | .initialization => "initialization"
  | .deletion => "deletion"
  | .conditionalDeletion => "conditional deletion"

/-- The operation of a sort on a location, if what it takes is there: a value, and a condition. -/
def operation? (target : Path) (value : Option Node) (condition : Option (Path × Identifier)) :
    OperationKind → Option Operation
  | .replacement => value.map fun value => .replacement target value
  | .conditionalReplacement => do
      let value ← value
      let (precondition, required) ← condition
      pure (.conditionalReplacement target value precondition required)
  | .initialization => value.map fun value => .initialization target value
  | .deletion => some (.deletion target)
  | .conditionalDeletion => do
      let (precondition, required) ← condition
      pure (.conditionalDeletion target precondition required)

end OperationKind

namespace Operation

/-- The sort of an operation. -/
def kind : Operation → OperationKind
  | .replacement _ _ => .replacement
  | .conditionalReplacement _ _ _ _ => .conditionalReplacement
  | .initialization _ _ => .initialization
  | .deletion _ => .deletion
  | .conditionalDeletion _ _ _ => .conditionalDeletion

/-- The value that an operation stores. -/
def value? : Operation → Option Node
  | .replacement _ value => some value
  | .conditionalReplacement _ value _ _ => some value
  | .initialization _ value => some value
  | .deletion _ => none
  | .conditionalDeletion _ _ _ => none

/-- The location that an operation changes. -/
def target : Operation → Path
  | .replacement target _ => target
  | .conditionalReplacement target _ _ _ => target
  | .initialization target _ => target
  | .deletion target => target
  | .conditionalDeletion target _ _ => target

/-- The location that a conditional operation looks at, and the identifier it requires there. -/
def precondition? : Operation → Option (Path × Identifier)
  | .conditionalReplacement _ _ precondition required => some (precondition, required)
  | .conditionalDeletion _ precondition required => some (precondition, required)
  | _ => none

/-- The name of an operation's sort as messages show it. -/
def name (operation : Operation) : String := operation.kind.name

/-- Whether a location holds an identifier; one that is absent holds none. -/
def holds (schema : Schema) (root : Node) (path : Path) (required : Identifier) :
    Except TreeError Bool := do
  let accessor ← schema.resolveAs path .identifier
  match accessor.get root with
  | .ok node => do
      let found ← node.asId
      pure (found == required)
  | .error (.nonexistent _) => pure false
  | .error error => throw error

/-- Whether the precondition is met; an operation without one may always proceed. -/
def mayProceed (schema : Schema) (root : Node) (operation : Operation) : Except TreeError Bool :=
  match operation.precondition? with
  | some (path, required) => holds schema root path required
  | none => .ok true

/-- Store a value; under something absent this has no effect. -/
def replace (schema : Schema) (target : Accessor) (root value : Node) :
    Except TreeError (Option Node) :=
  match target.set schema root value with
  | .ok after => .ok (some after)
  | .error (.nonexistent _) => .ok none
  | .error error => .error error

/-- Remove what is at the target; when nothing is there this has no effect. -/
def remove (target : Accessor) (root : Node) : Except TreeError (Option Node) := do
  let after ← target.delete root
  pure (if after = root then none else some after)

/-- The same operation on another location. -/
def retarget (target : Path) : Operation → Operation
  | .replacement _ value => .replacement target value
  | .conditionalReplacement _ value precondition required =>
      .conditionalReplacement target value precondition required
  | .initialization _ value => .initialization target value
  | .deletion _ => .deletion target
  | .conditionalDeletion _ precondition required =>
      .conditionalDeletion target precondition required

/-- The root that results from an operation, or `none` when it has no effect. -/
def apply (operation : Operation) (schema : Schema) (root : Node) :
    Except TreeError (Option Node) := do
  let target ← schema.resolve operation.target
  if ← operation.mayProceed schema root then
    match operation with
    | .replacement _ value | .conditionalReplacement _ value _ _ =>
        replace schema target root value
    | .initialization _ value =>
        if target.exists? root then pure none else replace schema target root value
    | .deletion _ | .conditionalDeletion _ _ _ => remove target root
  else pure none

end Operation

/-- An operation with the diagnostic context of its submission. -/
structure Update where
  operation : Operation
  diagnostics : DiagnosticContext
deriving DecidableEq

/-- An operation that is to be submitted, with a diagnostic context if not the current one is to go
with it. -/
structure Draft where
  operation : Operation
  diagnostics : Option DiagnosticContext

/-- The update that is submitted while a diagnostic context is the current one. -/
def Draft.capture (draft : Draft) (current : DiagnosticContext) : Update :=
  ⟨draft.operation, draft.diagnostics.getD current⟩

/-- The location that an update changes. -/
def Update.target (update : Update) : Path := update.operation.target

end StateTree
