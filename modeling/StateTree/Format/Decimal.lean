/-
Module: StateTree.Format.Decimal
Purpose: Binary floating-point numbers as decimal text: the fewest digits that read back as the same
  number, and of those the digits nearest to it. A style says which of two equally near decimals is
  taken, where scientific notation begins, and how its exponent is written.
-/
import StateTree.Format.Binary64
import StateTree.Text.Bytes

namespace StateTree.Decimal

/-- Which of two decimals a number halfway between them is written as. -/
inductive Tie where
  /-- The one with the even last digit. -/
  | toEven
  /-- The larger one. -/
  | up
deriving DecidableEq

/-- The number of decimal digits of a positive number. -/
def digitCount (n : Nat) : Nat := (Nat.toDigits 10 n).length

/-- A positive number with the interval of reals that round to it, all three multiplied by
`up / down`. The ends belong to the interval if `closed` says so. -/
structure Interval where
  low : Nat
  mid : Nat
  high : Nat
  up : Nat
  down : Nat
  closed : Bool

namespace Interval

/-- The leading bit of a significand, which is not stored. -/
def hiddenBit : Nat := 0x10000000000000

/-- The interval of the number `significand * 2 ^ exponent`. Below a power of two the neighbours are
half as far apart as above it. -/
def ofBinary (significand : Nat) (exponent : Int) : Interval :=
  let isPower := significand == hiddenBit && exponent != -1074
  let scale := exponent - 2
  { low := if isPower then 4 * significand - 1 else 4 * significand - 2
    mid := 4 * significand
    high := 4 * significand + 2
    up := 1 <<< scale.toNat
    down := 1 <<< (-scale).toNat
    closed := significand % 2 == 0 }

/-- Whether `digits * 10 ^ exponent` rounds to the number. -/
def contains (interval : Interval) (digits : Nat) (exponent : Int) : Bool :=
  let candidate := digits * Nat.pow 10 exponent.toNat * interval.down
  let scale := interval.up * Nat.pow 10 (-exponent).toNat
  if interval.closed then interval.low * scale ≤ candidate && candidate ≤ interval.high * scale
  else interval.low * scale < candidate && candidate < interval.high * scale

/-- The number in units of `10 ^ exponent`, rounded down, and twice the remainder with the divisor
that it is a remainder of. -/
def inUnits (interval : Interval) (exponent : Int) : Nat × Nat × Nat :=
  let numerator := interval.mid * interval.up * Nat.pow 10 (-exponent).toNat
  let divisor := interval.down * Nat.pow 10 exponent.toNat
  (numerator / divisor, 2 * (numerator % divisor), divisor)

/-- The decimal of a grid that rounds to the number, if there is one, and the nearer one of two. -/
def onGrid? (interval : Interval) (tie : Tie) (exponent : Int) : Option Nat :=
  let (below, twiceRest, divisor) := interval.inUnits exponent
  match interval.contains below exponent, interval.contains (below + 1) exponent with
  | true, false => some below
  | false, true => some (below + 1)
  | true, true =>
      if twiceRest < divisor ∨ (twiceRest = divisor ∧ tie = .toEven ∧ below % 2 = 0) then some below
      else some (below + 1)
  | false, false => none

/-- The exponent of the number's leading decimal digit. -/
def leadingExponent (interval : Interval) : Int :=
  let (whole, _, _) := interval.inUnits (-400)
  (digitCount whole : Int) - 401

/-- The shortest decimal that rounds to the number, trying grids of ever more digits. -/
def shortestFrom (interval : Interval) (tie : Tie) (leading : Int) : Nat → Nat → Nat × Int
  | 0, count =>
      let exponent := leading - count + 1
      ((interval.inUnits exponent).1, exponent)
  | fuel + 1, count =>
      let exponent := leading - count + 1
      match interval.onGrid? tie exponent with
      | some digits => (digits, exponent)
      | none => shortestFrom interval tie leading fuel (count + 1)

end Interval

/-- Digits without trailing zeros, with the exponent that makes up for them. -/
def trimZeros : Nat → Nat → Int → Nat × Int
  | 0, digits, exponent => (digits, exponent)
  | fuel + 1, digits, exponent =>
      if digits ≠ 0 ∧ digits % 10 = 0 then trimZeros fuel (digits / 10) (exponent + 1)
      else (digits, exponent)

/-- The digits and the exponent of the shortest decimal of `significand * 2 ^ exponent`. -/
def shortest (tie : Tie) (significand : Nat) (exponent : Int) : Nat × Int :=
  let interval := Interval.ofBinary significand exponent
  let (digits, exponent) := interval.shortestFrom tie interval.leadingExponent 17 1
  trimZeros 20 digits exponent

/-- How a decimal is laid out: positional from the exponent `leastPositional` of its leading digit
up to fifteen, scientific outside, with a mark in front of positive exponents and the texts of the
three values that are no numbers. -/
structure Style where
  tie : Tie
  leastPositional : Int
  plus : String
  infinite : String
  negativeInfinite : String
  undefined : String

/-- As messages show a number. -/
def Style.message : Style := ⟨.up, -4, "", "inf", "-inf", "NaN"⟩

/-- As JSON holds a number; what is none is null there. -/
def Style.json : Style := ⟨.toEven, -5, "+", "null", "null", "null"⟩

/-- A positive decimal, laid out. -/
def layout (style : Style) (digits : Nat) (exponent : Int) : String :=
  let written := toString digits
  let leading := exponent + written.length - 1
  if leading < style.leastPositional ∨ 15 < leading then
    let fraction := written.drop 1
    let mantissa :=
      if fraction.isEmpty then written else (written.take 1).toString ++ "." ++ fraction.toString
    let mark := if 0 < leading then style.plus else ""
    s!"{mantissa}e{mark}{leading}"
  else if 0 ≤ exponent then written ++ "".pushn '0' exponent.toNat ++ ".0"
  else if 0 ≤ leading then
    let whole := leading.toNat + 1
    (written.take whole).toString ++ "." ++ (written.drop whole).toString
  else "0." ++ "".pushn '0' (-leading - 1).toNat ++ written

/-- A number as text. -/
def render (style : Style) (x : Binary64) : String :=
  let sign := if x.isNegative then "-" else ""
  if x.exponent = 2047 then
    if x.fraction ≠ 0 then style.undefined
    else if x.isNegative then style.negativeInfinite
    else style.infinite
  else if x.exponent = 0 ∧ x.fraction = 0 then sign ++ "0.0"
  else
    let (significand, exponent) : Nat × Int :=
      if x.exponent = 0 then (x.fraction, -1074)
      else (Interval.hiddenBit + x.fraction, (x.exponent : Int) - 1075)
    let (digits, exponent) := shortest style.tie significand exponent
    sign ++ layout style digits exponent

/-- The floating-point number nearest to `digits * 10 ^ exponent`; what is too large is infinite. -/
def nearest (digits : Nat) (exponent : Int) : Float :=
  let leading := exponent + digitCount digits
  if digits = 0 ∨ leading < -400 then 0.0
  else if 400 < leading then 1.0 / 0.0
  else if 0 ≤ exponent then Float.ofScientific digits false exponent.natAbs
  else Float.ofScientific digits true exponent.natAbs

end StateTree.Decimal
