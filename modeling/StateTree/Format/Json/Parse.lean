/-
Module: StateTree.Format.Json.Parse
Purpose: Reading JSON. The grammar is strict: no comma too many, no control character in a string,
  no zero in front of a number. A parser takes octets and gives what it read with the octets that
  are left.
-/
import StateTree.Format.Json.Basic

namespace StateTree.Json

/-- Whether an octet may stand between tokens. -/
def isBlankByte (b : UInt8) : Bool := b == 0x20 || b == 0x09 || b == 0x0a || b == 0x0d

/-- The octets after any blanks. -/
def skipBlanks (bytes : Bytes) : Bytes := bytes.dropWhile isBlankByte

def isDigit (b : UInt8) : Bool := 0x30 ≤ b && b ≤ 0x39

def isHexDigit (b : UInt8) : Bool :=
  isDigit b || (0x41 ≤ b && b ≤ 0x46) || (0x61 ≤ b && b ≤ 0x66)

/-- The rest of a string after its opening quote, and what follows the closing one. -/
def stringBody? : Bytes → Option (Bytes × Bytes)
  | [] => none
  | 0x22 :: rest => some ([], rest)
  | 0x5c :: 0x75 :: a :: b :: c :: d :: rest =>
      if isHexDigit a && isHexDigit b && isHexDigit c && isHexDigit d then
        (stringBody? rest).map fun (body, rest) => (0x5c :: 0x75 :: a :: b :: c :: d :: body, rest)
      else none
  | 0x5c :: letter :: rest =>
      if (escapedLetter? letter).isSome then
        (stringBody? rest).map fun (body, rest) => (0x5c :: letter :: body, rest)
      else none
  | b :: rest =>
      if b < 0x20 ∨ b = 0x5c then none
      else (stringBody? rest).map fun (body, rest) => (b :: body, rest)

/-- One or more digits, and what follows them. -/
def digits? (bytes : Bytes) : Option (Bytes × Bytes) :=
  match bytes.takeWhile isDigit with
  | [] => none
  | digits => some (digits, bytes.dropWhile isDigit)

/-- The integer part of a number: a zero, or digits that do not begin with one. -/
def integerPart? : Bytes → Option (Bytes × Bytes)
  | 0x30 :: rest => some ([0x30], rest)
  | bytes => digits? bytes

/-- The fraction of a number; there need not be one. -/
def fractionPart? : Bytes → Option (Bytes × Bytes)
  | 0x2e :: rest => (digits? rest).map fun (digits, rest) => (0x2e :: digits, rest)
  | bytes => some ([], bytes)

/-- The exponent of a number; there need not be one. -/
def exponentPart? : Bytes → Option (Bytes × Bytes)
  | [] => some ([], [])
  | b :: rest =>
      if b = 0x65 ∨ b = 0x45 then
        match rest with
        | [] => none
        | sign :: more =>
            if sign = 0x2b ∨ sign = 0x2d then
              (digits? more).map fun (digits, rest) => (b :: sign :: digits, rest)
            else (digits? rest).map fun (digits, rest) => (b :: digits, rest)
      else some ([], b :: rest)

/-- A number without a sign, and what follows it. -/
def unsignedNumber? (bytes : Bytes) : Option (Bytes × Bytes) := do
  let (whole, rest) ← integerPart? bytes
  let (fraction, rest) ← fractionPart? rest
  let (exponent, rest) ← exponentPart? rest
  pure (whole ++ fraction ++ exponent, rest)

/-- A number, and what follows it. -/
def number? : Bytes → Option (Bytes × Bytes)
  | 0x2d :: rest => (unsignedNumber? rest).map fun (written, rest) => (0x2d :: written, rest)
  | bytes => unsignedNumber? bytes

mutual

/-- A value, and what follows it. The first argument bounds the number of calls within one
another; twice the number of octets is enough. -/
def value? : Nat → Bytes → Option (Json × Bytes)
  | 0, _ => none
  | fuel + 1, bytes =>
      match skipBlanks bytes with
      | 0x6e :: 0x75 :: 0x6c :: 0x6c :: rest => some (.null, rest)
      | 0x74 :: 0x72 :: 0x75 :: 0x65 :: rest => some (.bool true, rest)
      | 0x66 :: 0x61 :: 0x6c :: 0x73 :: 0x65 :: rest => some (.bool false, rest)
      | 0x22 :: rest => (stringBody? rest).map fun (body, rest) => (.string body, rest)
      | 0x5b :: rest =>
          match skipBlanks rest with
          | 0x5d :: rest => some (.array [], rest)
          | rest => (items? fuel rest).map fun (items, rest) => (.array items, rest)
      | 0x7b :: rest =>
          match skipBlanks rest with
          | 0x7d :: rest => some (.object [], rest)
          | rest => (members? fuel rest).map fun (members, rest) => (.object members, rest)
      | bytes => (number? bytes).map fun (written, rest) => (.number written, rest)

/-- One or more items of an array up to its end, and what follows it. -/
def items? : Nat → Bytes → Option (List Json × Bytes)
  | 0, _ => none
  | fuel + 1, bytes => do
      let (item, rest) ← value? fuel bytes
      match skipBlanks rest with
      | 0x5d :: rest => pure ([item], rest)
      | 0x2c :: rest => do
          let (items, rest) ← items? fuel rest
          pure (item :: items, rest)
      | _ => none

/-- One or more members of an object up to its end, and what follows it. -/
def members? : Nat → Bytes → Option (List (Bytes × Json) × Bytes)
  | 0, _ => none
  | fuel + 1, bytes =>
      match skipBlanks bytes with
      | 0x22 :: rest => do
          let (name, rest) ← stringBody? rest
          match skipBlanks rest with
          | 0x3a :: rest => do
              let (value, rest) ← value? fuel rest
              match skipBlanks rest with
              | 0x7d :: rest => pure ([(name, value)], rest)
              | 0x2c :: rest => do
                  let (members, rest) ← members? fuel rest
                  pure ((name, value) :: members, rest)
              | _ => none
          | _ => none
      | _ => none

end

/-- The value that octets spell. Nothing but blanks may follow it. -/
def parse? (bytes : Bytes) : Option Json := do
  let (value, rest) ← value? (2 * bytes.length + 2) bytes
  if (skipBlanks rest).isEmpty then pure value else none

end StateTree.Json
