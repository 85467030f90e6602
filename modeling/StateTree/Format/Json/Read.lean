/-
Module: StateTree.Format.Json.Read
Purpose: Taking JSON values apart by the form of the data they stand for: texts, integers, lists,
  maps, records with named fields, and choices between variants. Every reader is told how many
  more arrays and objects it may enter.
-/
import StateTree.Format.Json.Parse

namespace StateTree.Json

/-- How many arrays and objects may be entered within one another. -/
def depthLimit : Nat := 127

/-- Reading a value of a type, with the number of levels that may still be entered. -/
abbrev Reader (α : Type) := Nat → Json → Option α

/-- The level below, if it may be entered. -/
def enter : Nat → Option Nat
  | 0 => none
  | depth + 1 => some depth

def text? : Json → Option String
  | .string written => textOf? written
  | _ => none

def bool? : Json → Option Bool
  | .bool value => some value
  | _ => none

/-- The value of decimal digits. -/
def natOfDigits? (digits : Bytes) : Option Nat :=
  if digits.isEmpty ∨ !digits.all isDigit then none
  else some (digits.foldl (fun n b => 10 * n + (b.toNat - 0x30)) 0)

/-- The integer that a number is written as. A fraction or an exponent makes it none, and so does
the sign of a negative zero. -/
def intOf? : Bytes → Option Int
  | 0x2d :: digits => do
      let n ← natOfDigits? digits
      if n = 0 then none else pure (-(n : Int))
  | digits => (natOfDigits? digits).map fun n => (n : Int)

def int? : Json → Option Int
  | .number written => intOf? written
  | _ => none

/-- A natural number below a bound. -/
def natBelow? (bound : Nat) (json : Json) : Option Nat := do
  let n ← int? json
  if 0 ≤ n ∧ n < bound then pure n.toNat else none

/-- The items of an array, each read by the reader given. -/
def list? {α : Type} (read : Reader α) : Reader (List α)
  | depth, .array items => do
      let depth ← enter depth
      items.mapM (read depth)
  | _, _ => none

/-- The members of an object by name, each with what it holds. -/
def members (depth : Nat) : Json → Option (Nat × List (String × Json))
  | .object members => do
      let depth ← enter depth
      let named ← members.mapM fun member => (textOf? member.1).map fun name => (name, member.2)
      pure (depth, named)
  | _ => none

/-- The entries of an object that is a map, in their order. -/
def entries? {κ α : Type} (key : String → Option κ) (read : Reader α) : Reader (List (κ × α))
  | depth, json => do
      let (depth, named) ← members depth json
      named.mapM fun (name, value) => do
        let key ← key name
        let value ← read depth value
        pure (key, value)

/-- The fields of a record, in the order of their declaration. A record is an object of named
fields, or an array of the first few of them. -/
structure Slots where
  depth : Nat
  isArray : Bool
  slots : List (Option Json)

/-- The field of a name, unless there are several. -/
def slotNamed (named : List (String × Json)) (name : String) : Option (Option Json) :=
  match named.filter fun member => member.1 == name with
  | [] => some none
  | [member] => some (some member.2)
  | _ => none

/-- The fields of a record with these names. Other members of an object are passed over, other
items of an array are not allowed. -/
def slots? (names : List String) (depth : Nat) : Json → Option Slots
  | .array items => do
      let depth ← enter depth
      if items.length ≤ names.length then
        pure ⟨depth, true, items.map some ++ List.replicate (names.length - items.length) none⟩
      else none
  | json => do
      let (depth, named) ← members depth json
      let slots ← names.mapM (slotNamed named)
      pure ⟨depth, false, slots⟩

namespace Slots

/-- What stands in a field, if anything does. -/
def slot (slots : Slots) (index : Nat) : Option Json := (slots.slots[index]?).join

/-- A field that has to be there. -/
def required {α : Type} (slots : Slots) (index : Nat) (read : Reader α) : Option α :=
  slots.slot index >>= read slots.depth

/-- A field that counts as `value` where it is not there. -/
def orDefault {α : Type} (slots : Slots) (index : Nat) (value : α) (read : Reader α) : Option α :=
  match slots.slot index with
  | some json => read slots.depth json
  | none => some value

/-- A field that may be null, or absent from an object. -/
def nullable {α : Type} (slots : Slots) (index : Nat) (read : Reader α) : Option (Option α) :=
  match slots.slot index with
  | some .null => some none
  | some json => (read slots.depth json).map some
  | none => if slots.isArray then none else some none

end Slots

/-- The name of a variant, with what it holds. A variant that holds nothing is its name, any other
an object with one member. -/
structure Choice where
  name : String
  content : Option (Nat × Json)

/-- The variant that a value stands for. -/
def choice? (depth : Nat) : Json → Option Choice
  | .string written => (textOf? written).map fun name => ⟨name, none⟩
  | .object [(written, content)] => do
      let depth ← enter depth
      let name ← textOf? written
      pure ⟨name, some (depth, content)⟩
  | _ => none

namespace Choice

/-- A variant that holds nothing; a null is nothing, too. -/
def nothing {α : Type} (choice : Choice) (value : α) : Option α :=
  match choice.content with
  | none => some value
  | some (_, .null) => some value
  | _ => none

/-- What a variant holds. -/
def holding {α : Type} (choice : Choice) (read : Reader α) : Option α := do
  let (depth, content) ← choice.content
  read depth content

end Choice

end StateTree.Json
