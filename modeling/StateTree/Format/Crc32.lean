/-
Module: StateTree.Format.Crc32
Purpose: The 32-bit cyclic redundancy check with the reflected polynomial `edb88320`, starting from
  all ones and inverted at the end.
-/
import StateTree.Text.Bytes

namespace StateTree.Crc32

/-- One bit of the division. -/
def shift (remainder : UInt32) : UInt32 :=
  if remainder &&& 1 = 1 then (remainder >>> 1) ^^^ 0xedb88320 else remainder >>> 1

/-- One octet of the division. -/
def step (remainder : UInt32) (b : UInt8) : UInt32 :=
  let r := remainder ^^^ b.toUInt32
  shift (shift (shift (shift (shift (shift (shift (shift r)))))))

/-- The checksum of octets. -/
def checksum (bytes : Bytes) : UInt32 :=
  bytes.foldl step 0xffffffff ^^^ 0xffffffff

end StateTree.Crc32
