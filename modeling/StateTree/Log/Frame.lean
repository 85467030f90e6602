/-
Module: StateTree.Log.Frame
Purpose: Records in a segment file. A frame is the length of its payload, the payload's checksum,
  and the payload: a record in the binary layout. A scan takes frames from the front up to the
  first that is not intact; what follows that one is lost.
-/
import StateTree.Format.Crc32
import StateTree.Log.Error
import StateTree.Log.Record

namespace StateTree.Frame

/-- The octets of a frame in front of its payload. -/
def headerSize : Nat := 8

/-- The octets of the frame of a record. -/
def ofRecord (record : LogRecord) : Bytes :=
  let payload := Codec.put record
  Binary.putWord32 payload.length ++ Binary.putWord32 (Crc32.checksum payload).toNat ++ payload

/-- The record of a payload that came with a checksum at an offset. -/
def decode (offset : Nat) (expected : UInt32) (payload : Bytes) : Except LogError LogRecord :=
  let actual := Crc32.checksum payload
  if actual = expected then
    match Codec.ofBinary? payload with
    | some record => .ok record
    | none => .error .codec
  else .error (.checksum offset expected actual)

/-- The payload of the frame at the front of octets, with the checksum in its header. The length of
a payload is not zero. -/
def split? (bytes : Bytes) : Option (UInt32 × Bytes) := do
  let (length, rest) ← Binary.getWord32 bytes
  let (sum, rest) ← Binary.getWord32 rest
  if length = 0 then none
  else do
    let (payload, _) ← Binary.splitAt? length rest
    pure (UInt32.ofNat sum, payload)

/-- The record of the intact frame at the front of octets, with the size of the frame. -/
def first? (offset : Nat) (bytes : Bytes) : Option (LogRecord × Nat) := do
  let (expected, payload) ← split? bytes
  match decode offset expected payload with
  | .ok record => pure (record, headerSize + payload.length)
  | .error _ => none

/-- What a scan finds: the records of the intact frames with the offsets of their frames, and where
the last of them ends. -/
structure Scan where
  records : List (Nat × LogRecord)
  length : Nat

/-- Scan octets that begin at an offset. The first argument bounds the number of frames. -/
def scanFrom : Nat → Nat → Bytes → Scan
  | 0, offset, _ => ⟨[], offset⟩
  | fuel + 1, offset, bytes =>
      match first? offset bytes with
      | some (record, size) =>
          let rest := scanFrom fuel (offset + size) (bytes.drop size)
          ⟨(offset, record) :: rest.records, rest.length⟩
      | none => ⟨[], offset⟩

/-- Scan a whole segment. -/
def scan (bytes : Bytes) : Scan := scanFrom bytes.length 0 bytes

end StateTree.Frame
