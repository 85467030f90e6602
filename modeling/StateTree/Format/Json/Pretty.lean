/-
Module: StateTree.Format.Json.Pretty
Purpose: JSON over several lines: every item and member on a line of its own, each level two blanks
  deeper than the one around it.
-/
import StateTree.Format.Json.Basic

namespace StateTree.Json

/-- The start of a line at a level. -/
def lineStart (level : Nat) : Bytes := 0x0a :: List.replicate (2 * level) 0x20

/-- Pieces on lines of their own, with commas between them. -/
def linesAt (level : Nat) : List Bytes → Bytes
  | [] => []
  | [piece] => lineStart level ++ piece
  | piece :: rest => lineStart level ++ piece ++ [0x2c] ++ linesAt level rest

/-- Pieces between brackets. -/
def block (level : Nat) (opening closing : UInt8) (pieces : List Bytes) : Bytes :=
  if pieces.isEmpty then [opening, closing]
  else opening :: linesAt (level + 1) pieces ++ lineStart level ++ [closing]

mutual

/-- A value that begins on a line of the level given. -/
def prettyAt : Json → Nat → Bytes
  | .array items, level => block level 0x5b 0x5d (prettyItems items (level + 1))
  | .object members, level => block level 0x7b 0x7d (prettyMembers members (level + 1))
  | .null, _ => print .null
  | .bool value, _ => print (.bool value)
  | .number written, _ => print (.number written)
  | .string written, _ => print (.string written)
termination_by structural value => value

/-- The items of an array. -/
def prettyItems : List Json → Nat → List Bytes
  | [], _ => []
  | item :: rest, level => prettyAt item level :: prettyItems rest level
termination_by structural items => items

/-- The members of an object. -/
def prettyMembers : List (Bytes × Json) → Nat → List Bytes
  | [], _ => []
  | (name, value) :: rest, level =>
      ([0x22] ++ name ++ [0x22, 0x3a, 0x20] ++ prettyAt value level) :: prettyMembers rest level
termination_by structural members => members

end

/-- The written form of a value over several lines. -/
def pretty (value : Json) : Bytes := prettyAt value 0

end StateTree.Json
