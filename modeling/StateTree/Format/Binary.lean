/-
Module: StateTree.Format.Binary
Purpose: The binary layout: integers of fixed width, least octet first, texts and sequences after
  their length in eight octets, the variant of a choice in four. Readers take what they need from
  the front and leave the rest.
-/
import StateTree.Text.Bytes

namespace StateTree.Binary

/-! ## Writing -/

/-- The `width` low octets of a number, least first. -/
def littleEndian : Nat → Nat → Bytes
  | 0, _ => []
  | width + 1, n => UInt8.ofNat (n % 256) :: littleEndian width (n / 256)

def putWord32 (n : Nat) : Bytes := littleEndian 4 n

def putWord64 (n : Nat) : Bytes := littleEndian 8 n

/-- A signed number of eight octets, in two's complement. -/
def putInt (n : Int64) : Bytes := putWord64 n.toUInt64.toNat

def putBool (value : Bool) : Bytes := [if value then 1 else 0]

/-- Octets after their number. -/
def putBytes (bytes : Bytes) : Bytes := putWord64 bytes.length ++ bytes

def putText (text : String) : Bytes := putBytes (Text.utf8 text)

/-- Items after their number. -/
def putList {α : Type} (put : α → Bytes) (items : List α) : Bytes :=
  putWord64 items.length ++ items.flatMap put

def putOption {α : Type} (put : α → Bytes) : Option α → Bytes
  | none => [0]
  | some value => 1 :: put value

/-! ## Reading -/

/-- Takes a value from the front of the octets, if they begin with one. -/
abbrev Reader (α : Type) := StateT Bytes Option α

/-- What is no value of the type asked for. -/
def refuse {α : Type} : Reader α := fun _ => none

/-- The value that an option holds. -/
def accept {α : Type} : Option α → Reader α
  | some value => pure value
  | none => refuse

def getByte : Reader UInt8
  | [] => none
  | b :: rest => some (b, rest)

/-- Read so many values one after the other. -/
def times {α : Type} (read : Reader α) : Nat → Reader (List α)
  | 0 => pure []
  | count + 1 => do
      let value ← read
      let values ← times read count
      pure (value :: values)

/-- The number whose octets these are, least first. -/
def ofLittleEndian : Bytes → Nat
  | [] => 0
  | b :: rest => b.toNat + 256 * ofLittleEndian rest

/-- The first so many octets and the rest, unless there are fewer. -/
def splitAt? : Nat → Bytes → Option (Bytes × Bytes)
  | 0, bytes => some ([], bytes)
  | _ + 1, [] => none
  | count + 1, b :: rest => (splitAt? count rest).map fun (front, rest) => (b :: front, rest)

/-- So many octets. -/
def getRaw (count : Nat) : Reader Bytes := splitAt? count

def getWord32 : Reader Nat := do
  let bytes ← getRaw 4
  pure (ofLittleEndian bytes)

def getWord64 : Reader Nat := do
  let bytes ← getRaw 8
  pure (ofLittleEndian bytes)

def getInt : Reader Int64 := do
  let n ← getWord64
  pure (UInt64.ofNat n).toInt64

def getBool : Reader Bool := do
  let b ← getByte
  if b = 0 then pure false else if b = 1 then pure true else refuse

def getBytes : Reader Bytes := do
  let count ← getWord64
  getRaw count

def getText : Reader String := do
  let bytes ← getBytes
  accept (Text.ofUtf8? bytes)

def getList {α : Type} (read : Reader α) : Reader (List α) := do
  let count ← getWord64
  times read count

def getOption {α : Type} (read : Reader α) : Reader (Option α) := do
  let b ← getByte
  if b = 0 then pure none
  else if b = 1 then do
    let value ← read
    pure (some value)
  else refuse

end StateTree.Binary
