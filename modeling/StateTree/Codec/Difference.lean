/-
Module: StateTree.Codec.Difference
Purpose: The JSON form of differences: a record whose member `kind` names the sort of difference.
  A reader takes such a record as a whole before it looks at the parts, so all of it has to be
  sound, even members that it passes over.
-/
import StateTree.Codec.Basic
import StateTree.Difference
import StateTree.Format.Json.Float

namespace StateTree

namespace Json

mutual

/-- Whether a value can be read as a whole within the levels that may be entered: texts are
well-formed and numbers are not too large. -/
def isSound : Json → Nat → Bool
  | .null, _ => true
  | .bool _, _ => true
  | .number written, _ => (binary64? (.number written)).isSome
  | .string written, _ => (textOf? written).isSome
  | .array _, 0 => false
  | .array items, depth + 1 => areSound items depth
  | .object _, 0 => false
  | .object members, depth + 1 => membersAreSound members depth
termination_by structural json => json

/-- Whether all items of an array can be read. -/
def areSound : List Json → Nat → Bool
  | [], _ => true
  | item :: rest, depth => isSound item depth && areSound rest depth
termination_by structural items => items

/-- Whether all members of an object can be read. -/
def membersAreSound : List (Bytes × Json) → Nat → Bool
  | [], _ => true
  | (name, value) :: rest, depth =>
      (textOf? name).isSome && isSound value depth && membersAreSound rest depth
termination_by structural members => members

end

/-- A record that names its variant in a member `tag`, or in the first item of an array: the
variant's name or, if `numbered`, its number, and the record without it. -/
def tagged? (tag : String) : Json → Option (Json × Json)
  | .array (variant :: rest) => some (variant, .array rest)
  | .object members =>
      let isTag := fun member : Bytes × Json => textOf? member.1 == some tag
      match members.filter isTag with
      | [(_, variant)] => some (variant, .object (members.filter fun member => !isTag member))
      | _ => none
  | _ => none

end Json

namespace Difference

/-- The names of the sorts of difference. -/
def kindNames : List String :=
  ["no_difference", "node_missing", "unexpected_node", "primitive_difference",
    "multiple_differences"]

/-- The JSON form of a difference of a kind at a path. -/
def record (kind : String) (path : Path) (more : List (String × Json)) : Json :=
  .ofMembers (("kind", .ofText kind) :: ("path", Codec.toJson path) :: more)

mutual

/-- The JSON form of a difference. -/
def toJson : Difference → Json
  | .none => .ofMembers [("kind", .ofText "no_difference")]
  | .missing path => record "node_missing" path []
  | .unexpected path => record "unexpected_node" path []
  | .primitive path => record "primitive_difference" path []
  | .multiple path examples =>
      record "multiple_differences" path [("examples", .array (examplesToJson examples))]
termination_by structural difference => difference

/-- The JSON forms of examples. -/
def examplesToJson : List Difference → List Json
  | [] => []
  | example_ :: rest => toJson example_ :: examplesToJson rest
termination_by structural examples => examples

end

/-- The number of the kind that a value names. Within a record the number itself does, too. -/
def kindOf? (isNested : Bool) (variant : Json) : Option Nat :=
  match variant with
  | .string written => do
      let name ← Json.textOf? written
      kindNames.findIdx? (· == name)
  | .number _ => if isNested then variant.natBelow? kindNames.length else Option.none
  | _ => Option.none

/-- The path of a record that holds nothing else. -/
def pathOf? (depth : Nat) (json : Json) : Option Path := do
  let slots ← json.slots? ["path"] depth
  slots.required 0 Codec.ofJson?

/-- The difference of a sound JSON value. The first argument bounds how deep differences are nested;
one more than the levels that may be entered is enough. -/
def readJson : Nat → Bool → Json.Reader Difference
  | 0 => fun _ _ _ => Option.none
  | fuel + 1 => fun isNested depth json => do
      let (variant, rest) ← json.tagged? "kind"
      let kind ← kindOf? isNested variant
      match kind with
      | 0 =>
          match rest with
          | .array (_ :: _) => Option.none
          | _ => pure .none
      | 1 => (pathOf? depth rest).map .missing
      | 2 => (pathOf? depth rest).map .unexpected
      | 3 => (pathOf? depth rest).map .primitive
      | _ => do
          let slots ← rest.slots? ["path", "examples"] depth
          let path ← slots.required 0 Codec.ofJson?
          let examples ← slots.required 1 (Json.list? (readJson fuel true))
          pure (.multiple path examples)

/-- The difference of a JSON value. -/
def ofJson? : Json.Reader Difference := fun depth json =>
  if json.isSound depth then readJson (depth + 1) false depth json else Option.none

/-- The difference that a JSON text stands for. -/
def ofJsonText? (bytes : Bytes) : Option Difference := do
  let json ← Json.parse? bytes
  ofJson? Json.depthLimit json

end Difference

end StateTree
