/-
Module: StateTree.Format.Json.Basic
Purpose: JSON values as they are written. Numbers and strings keep their written form, so reading a
  text loses nothing and each reader decides what it makes of a number or an escape. Strings are
  written with the shortest escapes, numbers and everything else without blanks.
-/
import StateTree.Text.Hex

namespace StateTree

/-- A JSON value; numbers and the insides of strings are kept as written. -/
inductive Json where
  | null
  | bool (value : Bool)
  | number (written : Bytes)
  | string (written : Bytes)
  | array (items : List Json)
  | object (members : List (Bytes × Json))

namespace Json

/-! ## Text in strings -/

/-- An octet of a text as it is written in a string: a quote, a backslash and the controls below
the space are escaped. -/
def escapeByte (b : UInt8) : Bytes :=
  if b = 0x22 then [0x5c, 0x22]
  else if b = 0x5c then [0x5c, 0x5c]
  else if b = 0x08 then [0x5c, 0x62]
  else if b = 0x0c then [0x5c, 0x66]
  else if b = 0x0a then [0x5c, 0x6e]
  else if b = 0x0d then [0x5c, 0x72]
  else if b = 0x09 then [0x5c, 0x74]
  else if b < 0x20 then
    [0x5c, 0x75, 0x30, 0x30] ++ (Text.lowerHexByte b).map fun c => UInt8.ofNat c.toNat
  else [b]

/-- The written form of octets in a string. -/
def escape (bytes : Bytes) : Bytes := bytes.flatMap escapeByte

/-- The code unit of four hexadecimal digits. -/
def unitOfHex? (a b c d : UInt8) : Option Nat := do
  let digit (byte : UInt8) : Option Nat := Text.hexValue? (Char.ofNat byte.toNat)
  let a ← digit a
  let b ← digit b
  let c ← digit c
  let d ← digit d
  pure (((16 * a + b) * 16 + c) * 16 + d)

/-- What a one-letter escape stands for. -/
def escapedLetter? (b : UInt8) : Option UInt8 :=
  if b = 0x22 ∨ b = 0x5c ∨ b = 0x2f then some b
  else if b = 0x62 then some 0x08
  else if b = 0x66 then some 0x0c
  else if b = 0x6e then some 0x0a
  else if b = 0x72 then some 0x0d
  else if b = 0x74 then some 0x09
  else none

/-- The octets that a written string stands for. A high surrogate has to be followed by a low one,
and no low one stands alone. -/
def unescape? : Bytes → Option Bytes
  | [] => some []
  | 0x5c :: 0x75 :: a :: b :: c :: d :: rest => do
      let unit ← unitOfHex? a b c d
      if 0xd800 ≤ unit ∧ unit < 0xdc00 then
        match rest with
        | 0x5c :: 0x75 :: a :: b :: c :: d :: rest => do
            let low ← unitOfHex? a b c d
            if 0xdc00 ≤ low ∧ low < 0xe000 then
              let code := 0x10000 + (unit - 0xd800) * 0x400 + (low - 0xdc00)
              let bytes ← unescape? rest
              pure (String.utf8EncodeChar (Char.ofNat code) ++ bytes)
            else none
        | _ => none
      else if 0xdc00 ≤ unit ∧ unit < 0xe000 then none
      else do
        let bytes ← unescape? rest
        pure (String.utf8EncodeChar (Char.ofNat unit) ++ bytes)
  | 0x5c :: letter :: rest => do
      let b ← escapedLetter? letter
      let bytes ← unescape? rest
      pure (b :: bytes)
  | b :: rest => (unescape? rest).map (b :: ·)

/-- The text that a written string stands for. -/
def textOf? (written : Bytes) : Option String := unescape? written >>= Text.ofUtf8?

/-- The string of a text. -/
def ofText (text : String) : Json := .string (escape (Text.utf8 text))

/-- The number of an integer. -/
def ofInt (n : Int) : Json := .number (Text.utf8 (toString n))

/-- The number of a natural number. -/
def ofNat (n : Nat) : Json := .number (Text.utf8 (toString n))

/-- The object of members whose names are texts. -/
def ofMembers (members : List (String × Json)) : Json :=
  .object (members.map fun member => (escape (Text.utf8 member.1), member.2))

/-! ## The compact form -/

/-- Pieces with commas between them. -/
def commaSeparated : List Bytes → Bytes
  | [] => []
  | [piece] => piece
  | piece :: rest => piece ++ [0x2c] ++ commaSeparated rest

mutual

/-- The written form of a value, without blanks. -/
def print : Json → Bytes
  | .null => [0x6e, 0x75, 0x6c, 0x6c]
  | .bool true => [0x74, 0x72, 0x75, 0x65]
  | .bool false => [0x66, 0x61, 0x6c, 0x73, 0x65]
  | .number written => written
  | .string written => [0x22] ++ written ++ [0x22]
  | .array items => [0x5b] ++ commaSeparated (printItems items) ++ [0x5d]
  | .object members => [0x7b] ++ commaSeparated (printMembers members) ++ [0x7d]
termination_by structural value => value

/-- The written forms of the items of an array. -/
def printItems : List Json → List Bytes
  | [] => []
  | item :: rest => print item :: printItems rest
termination_by structural items => items

/-- The written forms of the members of an object. -/
def printMembers : List (Bytes × Json) → List Bytes
  | [] => []
  | (name, value) :: rest => ([0x22] ++ name ++ [0x22, 0x3a] ++ print value) :: printMembers rest
termination_by structural members => members

end

end Json

end StateTree
