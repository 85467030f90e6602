/-
Module: StateTree.Log.Record
Purpose: The records of a log. Their numbers are assigned on append, one after the other.
-/
import StateTree.Codec.Update
import StateTree.Uuid

namespace StateTree

/-- What a record carries. -/
inductive RecordBody where
  | update (update : Update)
  /-- A mark that a flush waits for; it carries nothing but its own position. -/
  | barrier
deriving DecidableEq

/-- One entry of the shared, totally ordered log. -/
structure LogRecord where
  /-- The position in the log. -/
  number : Nat
  /-- Ties the record to what its submitter wrote about it elsewhere. -/
  correlation : Uuid
  body : RecordBody
deriving DecidableEq

def LogRecord.isBarrier (record : LogRecord) : Bool := record.body == .barrier

instance : Codec RecordBody where
  toJson
    | .update update => .variant "Update" (Codec.toJson update)
    | .barrier => .ofText "Barrier"
  ofJson? depth json := do
    let choice ← json.choice? depth
    match choice.name with
    | "Update" => choice.holding fun depth json => (Codec.ofJson? depth json).map .update
    | "Barrier" => choice.nothing .barrier
    | _ => none
  put
    | .update update => Binary.putWord32 0 ++ Codec.put update
    | .barrier => Binary.putWord32 1
  get := do
    let variant ← Binary.getWord32
    match variant with
    | 0 => do
        let update ← Codec.get
        pure (.update update)
    | 1 => pure .barrier
    | _ => Binary.refuse

instance : Codec LogRecord where
  toJson record :=
    .ofMembers [("seq", .ofNat record.number), ("correlation", Codec.toJson record.correlation),
      ("body", Codec.toJson record.body)]
  ofJson? depth json := do
    let slots ← Json.slots? ["seq", "correlation", "body"] depth json
    let number ← slots.required 0 Json.word64?
    let correlation ← slots.required 1 Codec.ofJson?
    let body ← slots.required 2 Codec.ofJson?
    pure ⟨number, correlation, body⟩
  put record :=
    Binary.putWord64 record.number ++ Codec.put record.correlation ++ Codec.put record.body
  get := do
    let number ← Binary.getWord64
    let correlation ← Codec.get
    let body ← Codec.get
    pure ⟨number, correlation, body⟩

end StateTree
