/-
Module: StateTree.Format.Json.Float
Purpose: The floating-point number that a JSON number stands for. The digits are gathered in a
  64-bit significand, those that no longer fit are dropped, and the result is scaled by powers of
  ten; a number too large for the format is refused.
-/
import StateTree.Format.Decimal
import StateTree.Format.Json.Read

namespace StateTree.Json

/-- Gather integer digits; those that do not fit any more count as zeros. -/
def gatherWhole : Bytes → Nat → Nat → Nat × Nat
  | [], significand, dropped => (significand, dropped)
  | b :: rest, significand, dropped =>
      let next := 10 * significand + (b.toNat - 0x30)
      if dropped = 0 ∧ next < UInt64.size then gatherWhole rest next 0
      else gatherWhole rest significand (dropped + 1)

/-- Gather fraction digits up to the first that does not fit. -/
def gatherFraction : Bytes → Nat → Nat → Nat × Nat
  | [], significand, taken => (significand, taken)
  | b :: rest, significand, taken =>
      let next := 10 * significand + (b.toNat - 0x30)
      if next < UInt64.size then gatherFraction rest next (taken + 1) else (significand, taken)

/-- A number scaled by a power of ten, in steps that the format can hold. -/
def scaled? : Nat → Float → Int → Option Float
  | 0, x, _ => some x
  | fuel + 1, x, exponent =>
      if exponent.natAbs ≤ 308 then
        let power := Float.ofScientific 1 false exponent.natAbs
        if 0 ≤ exponent then
          let y := x * power
          if y.isInf then none else some y
        else some (x / power)
      else if x == 0 then some x
      else if 0 ≤ exponent then none
      else scaled? fuel (x / Float.ofScientific 1 false 308) (exponent + 308)

/-- The floating-point number that an unsigned number stands for. -/
def unsignedFloat? (written : Bytes) : Option Float := do
  let whole := written.takeWhile isDigit
  let rest := written.dropWhile isDigit
  let (significand, dropped) := gatherWhole whole 0 0
  let (fraction, rest) :=
    match rest with
    | 0x2e :: rest => (rest.takeWhile isDigit, rest.dropWhile isDigit)
    | rest => ([], rest)
  let (significand, taken) := gatherFraction fraction significand 0
  let start : Int := (dropped : Int) - taken
  let x := (UInt64.ofNat significand).toFloat
  match rest with
  | [] => scaled? 4 x start
  | _ :: rest =>
      let isNegative := rest.head? == some 0x2d
      let exponent ← natOfDigits? (rest.dropWhile fun b => !isDigit b)
      if Int32.maxValue.toInt < exponent then
        if significand ≠ 0 ∧ !isNegative then none else pure 0.0
      else scaled? 4 x (if isNegative then start - exponent else start + exponent)

/-- A floating-point number; an integer is one, too. -/
def binary64? : Json → Option Binary64
  | .number (0x2d :: written) => (unsignedFloat? written).map fun x => .ofFloat (-x)
  | .number written => (unsignedFloat? written).map .ofFloat
  | _ => none

/-- The JSON form of a floating-point number. -/
def ofBinary64 (x : Binary64) : Json := .number (Text.utf8 (Decimal.render .json x))

end StateTree.Json
