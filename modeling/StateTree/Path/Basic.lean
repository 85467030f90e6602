/-
Module: StateTree.Path.Basic
Purpose: Structural paths into a state tree. A path is a sequence of segments; a segment is a name
  or a parameter, a placeholder for any identifier at its position. The empty path is the root.
  Binding fills the parameters from the left, matching reads them back.
-/
import StateTree.Identifier

namespace StateTree

/-- One step of a path. -/
inductive Segment where
  /-- A field name, or the text of an entry's identifier. -/
  | name (text : String)
  /-- A placeholder for any identifier; the text is only a label. -/
  | parameter (label : String)
deriving DecidableEq

namespace Segment

/-- The segment that names an entry. -/
def entry (id : Identifier) : Segment :=
  .name id.text

def isParameter : Segment → Bool
  | .parameter _ => true
  | .name _ => false

/-- The text of a name. -/
def name? : Segment → Option String
  | .name text => some text
  | .parameter _ => none

/-- The label of a parameter. -/
def label? : Segment → Option String
  | .name _ => none
  | .parameter label => some label

/-- Names come before parameters; two of a sort are ordered by their text. -/
instance : Ord Segment where
  compare
    | .name a, .name b => compare a b
    | .name _, .parameter _ => .lt
    | .parameter _, .name _ => .gt
    | .parameter a, .parameter b => compare a b

end Segment

/-- A location in a state tree, or with parameters a family of locations. -/
structure Path where
  segments : List Segment
deriving DecidableEq

namespace Path

/-- The empty path. -/
def root : Path := ⟨[]⟩

/-- The path of these names. -/
def ofNames (names : List String) : Path := ⟨names.map .name⟩

def length (path : Path) : Nat := path.segments.length

def isRoot (path : Path) : Bool := path.segments.isEmpty

/-- The final segment, if there is one. -/
def last? (path : Path) : Option Segment := path.segments.getLast?

/-- One segment deeper. -/
def push (path : Path) (segment : Segment) : Path := ⟨path.segments ++ [segment]⟩

/-- The path to a field of what this path leads to. -/
def field (path : Path) (name : String) : Path := path.push (.name name)

/-- The path to an entry of what this path leads to. -/
def entry (path : Path) (id : Identifier) : Path := path.push (.entry id)

/-- One path after another. -/
instance : Append Path where
  append path suffix := ⟨path.segments ++ suffix.segments⟩

/-- The enclosing path; the root has none. -/
def parent? (path : Path) : Option Path :=
  if path.segments.isEmpty then none else some ⟨path.segments.dropLast⟩

/-- The first `count` segments, or all of them. -/
def take (path : Path) (count : Nat) : Path := ⟨path.segments.take count⟩

/-- All but the last `count` segments, unless there are fewer. -/
def dropLast? (path : Path) (count : Nat) : Option Path :=
  if count ≤ path.length then some (path.take (path.length - count)) else none

def isParameterized (path : Path) : Bool := path.segments.any Segment.isParameter

/-- The labels of the parameters, from the left. -/
def parameters (path : Path) : List String := path.segments.filterMap Segment.label?

def parameterCount (path : Path) : Nat := path.segments.countP Segment.isParameter

/-- Segments with the parameters replaced, from the left, by the identifiers given; a parameter for
which no identifier is left stays. -/
def bindSegments : List Segment → List Identifier → List Segment
  | [], _ => []
  | .name text :: rest, ids => .name text :: bindSegments rest ids
  | .parameter label :: rest, [] => .parameter label :: bindSegments rest []
  | .parameter _ :: rest, id :: ids => .entry id :: bindSegments rest ids

/-- The path with its parameters replaced, from the left. There has to be one identifier for each
parameter. -/
def bind? (pattern : Path) (ids : List Identifier) : Option Path :=
  if ids.length = pattern.parameterCount then some ⟨bindSegments pattern.segments ids⟩ else none

/-- Segment by segment, a pattern's parameter stands for anything and its name for itself. -/
def matchesSegments : List Segment → List Segment → Bool
  | [], [] => true
  | mine :: rest, theirs :: pattern =>
      (theirs.isParameter || mine == theirs) && matchesSegments rest pattern
  | _, _ => false

/-- Whether this path is an instance of `pattern`. -/
def matchesPattern (path pattern : Path) : Bool :=
  matchesSegments path.segments pattern.segments

/-- What stands, in the path, at the pattern's parameters, if it names entries there. -/
def valuesAt : List Segment → List Segment → Option (List Identifier)
  | mine :: rest, .parameter _ :: pattern => do
      let id ← mine.name? >>= Identifier.ofString?
      let ids ← valuesAt rest pattern
      pure (id :: ids)
  | _ :: rest, .name _ :: pattern => valuesAt rest pattern
  | _, _ => some []

/-- The identifiers that this path has at the parameters of `pattern`, if it is an instance of
`pattern` and names an entry at each of them. -/
def parameterValues? (path pattern : Path) : Option (List Identifier) :=
  if path.matchesPattern pattern then valuesAt path.segments pattern.segments else none

/-- Whether the path leads to what `other` leads to, or to something that encloses it. -/
def isPrefixOf (path other : Path) : Bool := path.segments.isPrefixOf other.segments

/-- Whether one of two paths leads into what the other leads to. -/
def overlaps (path other : Path) : Bool := path.isPrefixOf other || other.isPrefixOf path

/-- Paths are ordered segment by segment, a shorter one before its extensions. -/
instance : Ord Path where
  compare a b := List.compareLex compare a.segments b.segments

end Path

end StateTree
