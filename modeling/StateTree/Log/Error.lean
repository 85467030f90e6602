/-
Module: StateTree.Log.Error
Purpose: What can go wrong with a log and its backends, and how it is told. Faults of the file
  system and of encodings are told in words of their own, which are not a matter of this library.
-/
import StateTree.Log.Manifest
import StateTree.TreeError

namespace StateTree

/-- An error of a log or its backend. -/
inductive LogError where
  /-- The file system refused. -/
  | io
  /-- Something could not be encoded or decoded. -/
  | codec
  /-- The checksum of a frame at an offset is not the one it came with. -/
  | checksum (offset : Nat) (expected actual : UInt32)
  /-- The state document has another revision than the writer took it to have. -/
  | revisionConflict (expected actual : Option Nat)
  /-- The stored manifest is not one that the writer can go on from. -/
  | manifestMismatch (stored preferred : Manifest)
  /-- Records from a position on were asked for, and the first retained one is a later one. -/
  | compacted (requested first : Nat)
  /-- The backend cannot be reached or refused the call. -/
  | backend (reason : String)
  | tree (error : TreeError)

namespace LogError

/-- Whether to wait and try again could help. -/
def isTransient : LogError → Bool
  | .backend _ => true
  | .io => true
  | _ => false

/-- A revision, or none, as messages show it. -/
def revisionText : Option Nat → String
  | none => "None"
  | some revision => s!"Some({revision})"

/-- A checksum as messages show it. -/
def checksumText (sum : UInt32) : String := "0x" ++ Text.paddedHexOfNat 8 sum.toNat

/-- The text of an error, unless its words are another's. -/
def message? : LogError → Option String
  | .io => none
  | .codec => none
  | .checksum offset expected actual =>
      let found := s!"expected {checksumText expected}, got {checksumText actual}"
      some s!"CRC integrity check failed at offset {offset}: {found}"
  | .revisionConflict expected actual =>
      some s!"revision conflict: expected {revisionText expected}, found {revisionText actual}"
  | .manifestMismatch stored preferred =>
      some s!"manifest mismatch: stored {stored.text}, preferred {preferred.text}"
  | .compacted requested first =>
      some s!"log compacted past position {requested} (first retained: {first})"
  | .backend reason => some s!"backend unavailable: {reason}"
  | .tree error => some error.message

end LogError

end StateTree
