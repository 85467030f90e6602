/-
Module: StateTree.Format.Toml.Scalar
Purpose: The values of a TOML document that are written without quotes or brackets: booleans,
  integers of four bases, floating-point numbers, dates and times.
-/
import StateTree.Format.Decimal
import StateTree.Format.Toml.Basic
import StateTree.Text.Hex

namespace StateTree.Toml

def isDigit (c : Char) : Bool := '0' ≤ c && c ≤ '9'

/-- The digits of a number, each underscore between two digits left out. `after` tells that a digit
has just been read. -/
def ungrouped? (isFit : Char → Bool) : Bool → List Char → Option (List Char)
  | after, [] => if after then some [] else none
  | after, '_' :: rest => if after then ungrouped? isFit false rest else none
  | _, c :: rest => if isFit c then (ungrouped? isFit true rest).map (c :: ·) else none

/-- The number that digits of a base spell. -/
def natOfDigits (base : Nat) (digits : List Char) : Nat :=
  digits.foldl (fun n c => base * n + (Text.hexValue? c).getD 0) 0

/-- Whether a character is a digit of a base. -/
def isDigitOf (base : Nat) (c : Char) : Bool :=
  match Text.hexValue? c with
  | some value => value < base
  | none => false

/-- The number that digits of a base spell, underscores allowed between them. -/
def nat? (base : Nat) (digits : List Char) : Option Nat :=
  (ungrouped? (isDigitOf base) false digits).map (natOfDigits base)

/-- A sign in front, and what it stands before. -/
def signed : List Char → Bool × List Char
  | '+' :: rest => (false, rest)
  | '-' :: rest => (true, rest)
  | rest => (false, rest)

/-- Decimal digits of which only a lone one may be a leading zero. -/
def plainDigits? (written : List Char) : Option (List Char) := do
  let digits ← ungrouped? isDigit false written
  match digits with
  | '0' :: _ :: _ => none
  | _ => pure digits

/-- An integer. -/
def integer? (written : List Char) : Option Int := do
  let n ←
    match written with
    | '0' :: 'x' :: digits => (nat? 16 digits).map Int.ofNat
    | '0' :: 'o' :: digits => (nat? 8 digits).map Int.ofNat
    | '0' :: 'b' :: digits => (nat? 2 digits).map Int.ofNat
    | _ => do
        let (isNegative, rest) := signed written
        let digits ← plainDigits? rest
        let n := Int.ofNat (natOfDigits 10 digits)
        pure (if isNegative then -n else n)
  if Int64.minValue.toInt ≤ n ∧ n ≤ Int64.maxValue.toInt then pure n else none

/-- The exponent of a number, with its letter. -/
def exponent? : List Char → Option Int
  | [] => some 0
  | _ :: rest => do
      let (isNegative, rest) := signed rest
      let n ← nat? 10 rest
      pure (if isNegative then -(n : Int) else n)

/-- A floating-point number: an integer part with a fraction, an exponent or both, or one of the
special values. A number too large for the format is refused. -/
def float? (written : List Char) : Option Float := do
  let (isNegative, rest) := signed written
  let sign (x : Float) : Float := if isNegative then -x else x
  match rest with
  | ['i', 'n', 'f'] => pure (sign (1.0 / 0.0))
  | ['n', 'a', 'n'] => pure (0.0 / 0.0)
  | _ =>
      let isWhole (c : Char) : Bool := isDigit c || c == '_'
      let whole ← plainDigits? (rest.takeWhile isWhole)
      let (fraction, power) ←
        match rest.dropWhile isWhole with
        | '.' :: more => do
            let fraction ← ungrouped? isDigit false (more.takeWhile isWhole)
            pure (fraction, more.dropWhile isWhole)
        | power => pure ([], power)
      if fraction.isEmpty ∧ power.isEmpty then none
      let isPower : Bool :=
        match power with
        | [] => true
        | c :: _ => c == 'e' || c == 'E'
      if !isPower then none
      let exponent ← exponent? power
      let x := Decimal.nearest (natOfDigits 10 (whole ++ fraction)) (exponent - fraction.length)
      if x.isInf ∧ !isNegative then none else pure (sign x)

/-! ## Dates and times -/

/-- A number of exactly so many digits, within bounds. -/
def field? (digits : List Char) (width low high : Nat) : Option Nat :=
  let n := natOfDigits 10 digits
  if digits.length = width ∧ digits.all isDigit ∧ low ≤ n ∧ n ≤ high then some n else none

/-- The days of a month. -/
def daysIn (year month : Nat) : Nat :=
  if month = 2 then
    if year % 4 = 0 ∧ (year % 100 ≠ 0 ∨ year % 400 = 0) then 29 else 28
  else if month = 4 ∨ month = 6 ∨ month = 9 ∨ month = 11 then 30
  else 31

/-- Whether a date is one. -/
def isDate (written : List Char) : Bool :=
  match field? (written.take 4) 4 0 9999, (written.drop 4).take 1,
      field? ((written.drop 5).take 2) 2 1 12, (written.drop 7).take 1 with
  | some year, ['-'], some month, ['-'] =>
      (field? (written.drop 8) 2 1 (daysIn year month)).isSome
  | _, _, _, _ => false

/-- Hours and minutes. -/
def isHourMinute (written : List Char) : Bool :=
  (field? (written.take 2) 2 0 23).isSome && (written.drop 2).take 1 == [':']
    && (field? (written.drop 3) 2 0 59).isSome

/-- Whether a time of day is one; fractions of a second may follow it. -/
def isTime (written : List Char) : Bool :=
  isHourMinute (written.take 5) && (written.drop 5).take 1 == [':']
    && (field? ((written.drop 6).take 2) 2 0 60).isSome
    && (match written.drop 8 with
      | [] => true
      | '.' :: digits => !digits.isEmpty && digits.all isDigit
      | _ => false)

/-- Whether an offset from universal time, or none, is one. -/
def isOffset : List Char → Bool
  | [] => true
  | ['Z'] => true
  | ['z'] => true
  | '+' :: rest => isHourMinute rest
  | '-' :: rest => isHourMinute rest
  | _ => false

/-- Whether a time of day with an offset is one. -/
def isTimeWithOffset (written : List Char) : Bool :=
  let isOfTime (c : Char) : Bool := isDigit c || c == ':' || c == '.'
  isTime (written.takeWhile isOfTime) && isOffset (written.dropWhile isOfTime)

/-- Whether a date, a time of day, or a date with a time is one. -/
def isMoment (written : List Char) : Bool :=
  isTime written
    || (isDate (written.take 10)
      && (match written.drop 10 with
        | [] => true
        | c :: rest => (c == 'T' || c == 't' || c == ' ') && isTimeWithOffset rest))

/-- The value that a run of characters without quotes stands for. -/
def scalar? (written : List Char) : Option Toml :=
  if written = "true".toList then some (.boolean true)
  else if written = "false".toList then some (.boolean false)
  else if isMoment written then some .moment
  else
    match integer? written with
    | some n => some (.integer n)
    | none => (float? written).map .float

end StateTree.Toml
