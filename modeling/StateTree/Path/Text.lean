/-
Module: StateTree.Path.Text
Purpose: The written form of paths. Each segment follows a slash. A parameter stands between
  dashes; a name is written with percent escapes for every octet that is not a letter, a digit or
  one of `.`, `_`, `~`, and a dash only where no reader could take it for a parameter's.
-/
import StateTree.Path.Basic
import StateTree.Text.Quoted

namespace StateTree

namespace Segment

/-- Whether an octet of a name stands for itself; `edge` tells that it is the first or last one. -/
def standsForItself (b : UInt8) (edge : Bool) : Bool :=
  (0x30 ≤ b && b ≤ 0x39) || (0x41 ≤ b && b ≤ 0x5a) || (0x61 ≤ b && b ≤ 0x7a)
    || b == 0x2e || b == 0x5f || b == 0x7e || (b == 0x2d && !edge)

/-- One octet of a name as it is written. -/
def escapedByte (b : UInt8) (edge : Bool) : List Char :=
  if standsForItself b edge then [Char.ofNat b.toNat] else '%' :: Text.upperHexByte b

/-- Octets after the first one of a name. -/
def escapedTail : Bytes → List Char
  | [] => []
  | [b] => escapedByte b true
  | b :: rest => escapedByte b false ++ escapedTail rest

/-- The octets of a name as they are written. -/
def escaped : Bytes → List Char
  | [] => []
  | b :: rest => escapedByte b true ++ escapedTail rest

/-- The written form of a segment. -/
def chars : Segment → List Char
  | .name text => escaped (Text.utf8 text)
  | .parameter label => '-' :: label.toList ++ ['-']

/-- The value of the two characters after a percent sign: two hexadecimal digits, or one after a
plus sign. -/
def escapeValue? (hi lo : Char) : Option UInt8 :=
  if hi = '+' then (Text.hexValue? lo).map UInt8.ofNat
  else do
    let h ← Text.hexValue? hi
    let l ← Text.hexValue? lo
    pure (UInt8.ofNat (16 * h + l))

/-- The octets that a written name stands for, if its escapes are in order. -/
def unescaped? : List Char → Option Bytes
  | [] => some []
  | '%' :: hi :: lo :: rest => do
      let b ← escapeValue? hi lo
      let bytes ← unescaped? rest
      pure (b :: bytes)
  | '%' :: _ => none
  | c :: rest => (unescaped? rest).map (String.utf8EncodeChar c ++ ·)

/-- What keeps a text from being a path. -/
inductive Fault where
  /-- The text does not begin with a slash. -/
  | relative
  /-- Two slashes stand side by side. -/
  | empty
  /-- The label of a parameter has a dash in it. -/
  | dashInLabel (label : String)
  /-- A segment begins like a parameter and is none. -/
  | malformedParameter (raw : String)
  /-- A name has a broken escape, or its octets are no text. -/
  | badEscape (raw : String)
deriving DecidableEq

/-- The segment that a written form stands for. -/
def ofChars (raw : List Char) : Except Fault Segment :=
  match raw with
  | [] => .error .empty
  | '-' :: rest =>
      if 2 ≤ rest.length ∧ rest.getLast? = some '-' then
        let label := rest.dropLast
        if '-' ∈ label then .error (.dashInLabel (String.ofList label))
        else .ok (.parameter (String.ofList label))
      else .error (.malformedParameter (String.ofList raw))
  | _ =>
      match unescaped? raw >>= Text.ofUtf8? with
      | some text => .ok (.name text)
      | none => .error (.badEscape (String.ofList raw))

end Segment

/-- Errors of reading and shaping paths and identifiers. -/
inductive PathError where
  | invalidSyntax (text : String) (fault : Segment.Fault)
  | emptyIdentifier
  | parameterCount (path : Path) (expected actual : Nat)
  | truncateBeyondRoot (path : Path) (count : Nat)
deriving DecidableEq

namespace Path

/-- The pieces of a text between slashes; there is always one more than there are slashes. -/
def pieces : List Char → List (List Char)
  | [] => [[]]
  | '/' :: rest => [] :: pieces rest
  | c :: rest =>
      match pieces rest with
      | piece :: more => (c :: piece) :: more
      | [] => [[c]]

/-- The written form of a path: a slash before each segment, and a single slash for the root. -/
def chars (path : Path) : List Char :=
  if path.segments.isEmpty then ['/'] else path.segments.flatMap fun segment => '/' :: segment.chars

/-- The written form of a path as a text. -/
def render (path : Path) : String := String.ofList path.chars

instance : ToString Path where
  toString path := path.render

/-- The segments of a list of written forms, or the first fault. -/
def segmentsOfPieces : List (List Char) → Except Segment.Fault (List Segment)
  | [] => .ok []
  | piece :: rest => do
      let segment ← Segment.ofChars piece
      let segments ← segmentsOfPieces rest
      pure (segment :: segments)

/-- The segments of a written path. One slash at the end is passed over. -/
def segmentsOfChars : List Char → Except Segment.Fault (List Segment)
  | '/' :: body =>
      if body.isEmpty then .ok []
      else segmentsOfPieces (pieces (if body.getLast? = some '/' then body.dropLast else body))
  | _ => .error .relative

/-- The path that a text stands for. -/
def parse (text : String) : Except PathError Path :=
  match segmentsOfChars text.toList with
  | .ok segments => .ok ⟨segments⟩
  | .error fault => .error (.invalidSyntax text fault)

/-- The path that a text stands for, without the reason where there is none. -/
def parse? (text : String) : Option Path := (parse text).toOption

/-- All but the last `count` segments. -/
def dropLast (path : Path) (count : Nat) : Except PathError Path :=
  match path.dropLast? count with
  | some shorter => .ok shorter
  | none => .error (.truncateBeyondRoot path count)

/-- The path with its parameters replaced, from the left. -/
def bind (pattern : Path) (ids : List Identifier) : Except PathError Path :=
  match pattern.bind? ids with
  | some path => .ok path
  | none => .error (.parameterCount pattern pattern.parameterCount ids.length)

end Path

/-- The identifier with this text. -/
def Identifier.ofString (text : String) : Except PathError Identifier :=
  match ofString? text with
  | some id => .ok id
  | none => .error .emptyIdentifier

open Text in
/-- The reason as it stands in a message. -/
def Segment.Fault.message : Segment.Fault → String
  | .relative => "path must start with '/'"
  | .empty => "empty segment"
  | .dashInLabel label => s!"parameter name {quoted label} may not contain '-'"
  | .malformedParameter raw => s!"malformed parameter {quoted raw}"
  | .badEscape raw => s!"bad percent-encoding in {quoted raw}"

open Text in
/-- The text of an error. -/
def PathError.message : PathError → String
  | .invalidSyntax text fault => s!"invalid path syntax in {quoted text}: {fault.message}"
  | .emptyIdentifier => "invalid identifier \"\""
  | .parameterCount path expected actual =>
      s!"path {path} has {expected} parameters but {actual} values were supplied"
  | .truncateBeyondRoot path count => s!"cannot truncate {path} by {count} segments"

end StateTree
