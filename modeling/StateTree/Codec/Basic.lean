/-
Module: StateTree.Codec.Basic
Purpose: How values are stored: as JSON and in the binary layout. A codec has a writer and a reader
  for both. Readers are strict in what they take; a binary reader leaves what follows the value.
-/
import StateTree.Format.Json.Read
import StateTree.Format.Binary
import StateTree.Path.Text

namespace StateTree

/-- The stored forms of the values of a type. -/
class Codec (α : Type) where
  toJson : α → Json
  ofJson? : Json.Reader α
  put : α → Bytes
  get : Binary.Reader α

namespace Json

/-- The JSON form of a variant that holds something. -/
def variant (name : String) (content : Json) : Json := .ofMembers [(name, content)]

/-- A natural number of four octets. -/
def word32? : Reader Nat := fun _ json => json.natBelow? UInt32.size

/-- A natural number of eight octets. -/
def word64? : Reader Nat := fun _ json => json.natBelow? UInt64.size

/-- An octet. -/
def byte? : Reader UInt8 := fun _ json => (json.natBelow? UInt8.size).map UInt8.ofNat

/-- A signed number of eight octets. -/
def int64? : Reader Int64 := fun _ json => do
  let n ← json.int?
  if Int64.minValue.toInt ≤ n ∧ n ≤ Int64.maxValue.toInt then pure (Int64.ofInt n) else none

end Json

namespace Codec

variable {α : Type}

/-! ## Texts in the two formats -/

section Formats

variable [Codec α]

/-- The JSON text of a value, without blanks. -/
def json (value : α) : Bytes := (toJson value).print

/-- The value that a JSON text stands for. -/
def ofJsonText? (bytes : Bytes) : Option α := do
  let json ← Json.parse? bytes
  ofJson? Json.depthLimit json

/-- The value that stands at the front of octets in the binary layout. -/
def ofBinary? (bytes : Bytes) : Option α := do
  let (value, _) ← get bytes
  pure value

end Formats

/-! ## Values stored as texts -/

/-- The codec of values that are stored as texts. -/
@[reducible] def ofText (text : α → String) (value? : String → Option α) : Codec α where
  toJson value := .ofText (text value)
  ofJson? _ json := json.text? >>= value?
  put value := Binary.putText (text value)
  get := do
    let text ← Binary.getText
    Binary.accept (value? text)

instance : Codec Identifier := ofText Identifier.text Identifier.ofString?

/-- A path is stored as its written form. -/
instance : Codec Path := ofText Path.render Path.parse?

/-- The codec of a choice between names. -/
@[reducible] def ofNames [DecidableEq α] (choices : List (α × String)) : Codec α where
  toJson value := .ofText ((choices.lookup value).getD "")
  ofJson? depth json := do
    let choice ← json.choice? depth
    let found ← choices.find? fun entry => entry.2 == choice.name
    choice.nothing found.1
  put value := Binary.putWord32 (choices.findIdx fun entry => entry.1 == value)
  get := do
    let index ← Binary.getWord32
    Binary.accept ((choices[index]?).map Prod.fst)

instance : Codec Segment where
  toJson
    | .name text => .variant "Name" (.ofText text)
    | .parameter label => .variant "Parameter" (.ofText label)
  ofJson? depth json := do
    let choice ← json.choice? depth
    let text ← choice.holding fun _ json => json.text?
    match choice.name with
    | "Name" => pure (.name text)
    | "Parameter" => pure (.parameter text)
    | _ => none
  put
    | .name text => Binary.putWord32 0 ++ Binary.putText text
    | .parameter label => Binary.putWord32 1 ++ Binary.putText label
  get := do
    let variant ← Binary.getWord32
    let text ← Binary.getText
    match variant with
    | 0 => pure (.name text)
    | 1 => pure (.parameter text)
    | _ => Binary.refuse

end Codec

end StateTree
