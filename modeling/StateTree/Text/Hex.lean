/-
Module: StateTree.Text.Hex
Purpose: Hexadecimal digits and the two-digit form of an octet.
-/
import StateTree.Text.Bytes

namespace StateTree.Text

/-- The lowercase digit of a value below sixteen. -/
def lowerHexDigit (n : Nat) : Char :=
  if n < 10 then Char.ofNat (0x30 + n) else Char.ofNat (0x61 + (n - 10))

/-- The uppercase digit of a value below sixteen. -/
def upperHexDigit (n : Nat) : Char :=
  if n < 10 then Char.ofNat (0x30 + n) else Char.ofNat (0x41 + (n - 10))

/-- The value of a hexadecimal digit of either case. -/
def hexValue? (c : Char) : Option Nat :=
  if '0' ≤ c ∧ c ≤ '9' then some (c.toNat - 0x30)
  else if 'a' ≤ c ∧ c ≤ 'f' then some (c.toNat - 0x61 + 10)
  else if 'A' ≤ c ∧ c ≤ 'F' then some (c.toNat - 0x41 + 10)
  else none

/-- An octet as two lowercase digits. -/
def lowerHexByte (b : UInt8) : List Char :=
  [lowerHexDigit (b.toNat / 16), lowerHexDigit (b.toNat % 16)]

/-- An octet as two uppercase digits. -/
def upperHexByte (b : UInt8) : List Char :=
  [upperHexDigit (b.toNat / 16), upperHexDigit (b.toNat % 16)]

/-- Octets as lowercase digit pairs, with nothing between them. -/
def hexOfBytes (bytes : Bytes) : String :=
  String.ofList (bytes.flatMap lowerHexByte)

/-- The octets that digit pairs spell; an odd digit or a foreign character spells none. -/
def bytesOfHexChars? : List Char → Option Bytes
  | [] => some []
  | hi :: lo :: rest => do
    let h ← hexValue? hi
    let l ← hexValue? lo
    let bytes ← bytesOfHexChars? rest
    pure (UInt8.ofNat (16 * h + l) :: bytes)
  | [_] => none

/-- The octets that a text of digit pairs spells. -/
def bytesOfHex? (text : String) : Option Bytes :=
  bytesOfHexChars? text.toList

/-- The digits of a number without leading zeros, lowercase. -/
def hexOfNat (n : Nat) : String :=
  String.ofList (Nat.toDigits 16 n)

/-- The digits of a number, lowercase, filled with zeros on the left to at least `width`. -/
def paddedHexOfNat (width n : Nat) : String :=
  let digits := Nat.toDigits 16 n
  String.ofList (List.replicate (width - digits.length) '0' ++ digits)

end StateTree.Text
