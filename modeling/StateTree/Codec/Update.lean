/-
Module: StateTree.Codec.Update
Purpose: The stored forms of diagnostic contexts, operations and updates.
-/
import StateTree.Codec.Node
import StateTree.Update

namespace StateTree

namespace DiagnosticContext

/-- The members of a context's attributes. -/
def membersOf (context : DiagnosticContext) : List (String × Json) :=
  context.attributes.map fun entry => (entry.1, .ofText entry.2)

instance : Codec DiagnosticContext where
  toJson context := .ofMembers [("attributes", .ofMembers context.membersOf)]
  ofJson? depth json := do
    let slots ← Json.slots? ["attributes"] depth json
    let attributes ← slots.required 0 (Json.entries? some fun _ json => json.text?)
    pure (.ofPairs attributes)
  put context :=
    Binary.putList (fun entry => Binary.putText entry.1 ++ Binary.putText entry.2)
      context.attributes
  get := do
    let attributes ← Binary.getList do
      let key ← Binary.getText
      let value ← Binary.getText
      pure (key, value)
    pure (.ofPairs attributes)

end DiagnosticContext

namespace Operation

/-- The JSON form of an operation: its variant with a record. -/
def toJson : Operation → Json
  | .replacement target value =>
      .variant "Replacement"
        (.ofMembers [("target", Codec.toJson target), ("value", Codec.toJson value)])
  | .conditionalReplacement target value precondition required =>
      .variant "ConditionalReplacement"
        (.ofMembers [("target", Codec.toJson target), ("value", Codec.toJson value),
          ("precondition", Codec.toJson precondition), ("required", Codec.toJson required)])
  | .initialization target value =>
      .variant "Initialization"
        (.ofMembers [("target", Codec.toJson target), ("value", Codec.toJson value)])
  | .deletion target => .variant "Deletion" (.ofMembers [("target", Codec.toJson target)])
  | .conditionalDeletion target precondition required =>
      .variant "ConditionalDeletion"
        (.ofMembers [("target", Codec.toJson target), ("precondition", Codec.toJson precondition),
          ("required", Codec.toJson required)])

/-- The operation of a JSON value. -/
def ofJson? : Json.Reader Operation := fun depth json => do
  let choice ← json.choice? depth
  match choice.name with
  | "Replacement" =>
      choice.holding fun depth json => do
        let slots ← Json.slots? ["target", "value"] depth json
        let target ← slots.required 0 Codec.ofJson?
        let value ← slots.required 1 Codec.ofJson?
        pure (.replacement target value)
  | "ConditionalReplacement" =>
      choice.holding fun depth json => do
        let slots ← Json.slots? ["target", "value", "precondition", "required"] depth json
        let target ← slots.required 0 Codec.ofJson?
        let value ← slots.required 1 Codec.ofJson?
        let precondition ← slots.required 2 Codec.ofJson?
        let required ← slots.required 3 Codec.ofJson?
        pure (.conditionalReplacement target value precondition required)
  | "Initialization" =>
      choice.holding fun depth json => do
        let slots ← Json.slots? ["target", "value"] depth json
        let target ← slots.required 0 Codec.ofJson?
        let value ← slots.required 1 Codec.ofJson?
        pure (.initialization target value)
  | "Deletion" =>
      choice.holding fun depth json => do
        let slots ← Json.slots? ["target"] depth json
        let target ← slots.required 0 Codec.ofJson?
        pure (.deletion target)
  | "ConditionalDeletion" =>
      choice.holding fun depth json => do
        let slots ← Json.slots? ["target", "precondition", "required"] depth json
        let target ← slots.required 0 Codec.ofJson?
        let precondition ← slots.required 1 Codec.ofJson?
        let required ← slots.required 2 Codec.ofJson?
        pure (.conditionalDeletion target precondition required)
  | _ => none

/-- The octets of an operation. -/
def put : Operation → Bytes
  | .replacement target value => Binary.putWord32 0 ++ Codec.put target ++ Codec.put value
  | .conditionalReplacement target value precondition required =>
      Binary.putWord32 1 ++ Codec.put target ++ Codec.put value ++ Codec.put precondition
        ++ Codec.put required
  | .initialization target value => Binary.putWord32 2 ++ Codec.put target ++ Codec.put value
  | .deletion target => Binary.putWord32 3 ++ Codec.put target
  | .conditionalDeletion target precondition required =>
      Binary.putWord32 4 ++ Codec.put target ++ Codec.put precondition ++ Codec.put required

/-- Read an operation. -/
def get : Binary.Reader Operation := do
  let variant ← Binary.getWord32
  match variant with
  | 0 => do
      let target ← Codec.get
      let value ← Codec.get
      pure (.replacement target value)
  | 1 => do
      let target ← Codec.get
      let value ← Codec.get
      let precondition ← Codec.get
      let required ← Codec.get
      pure (.conditionalReplacement target value precondition required)
  | 2 => do
      let target ← Codec.get
      let value ← Codec.get
      pure (.initialization target value)
  | 3 => do
      let target ← Codec.get
      pure (.deletion target)
  | 4 => do
      let target ← Codec.get
      let precondition ← Codec.get
      let required ← Codec.get
      pure (.conditionalDeletion target precondition required)
  | _ => Binary.refuse

instance : Codec Operation := ⟨toJson, ofJson?, put, get⟩

end Operation

instance : Codec Update where
  toJson update :=
    .ofMembers [("op", Codec.toJson update.operation),
      ("diagnostics", Codec.toJson update.diagnostics)]
  ofJson? depth json := do
    let slots ← Json.slots? ["op", "diagnostics"] depth json
    let operation ← slots.required 0 Codec.ofJson?
    let diagnostics ← slots.required 1 Codec.ofJson?
    pure ⟨operation, diagnostics⟩
  put update := Codec.put update.operation ++ Codec.put update.diagnostics
  get := do
    let operation ← Codec.get
    let diagnostics ← Codec.get
    pure ⟨operation, diagnostics⟩

end StateTree
