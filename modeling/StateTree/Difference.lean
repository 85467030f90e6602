/-
Module: StateTree.Difference
Purpose: Where two trees first disagree. Structs, catalogs and side tables over one domain are
  compared child by child; anything else differs as a whole.
-/
import StateTree.Node.Basic

namespace StateTree

/-- The disagreement of an actual tree with an expected one. -/
inductive Difference where
  | none
  /-- Expected, and not there. -/
  | missing (path : Path)
  /-- There, and not expected. -/
  | unexpected (path : Path)
  /-- Two values that cannot be told apart further, or the same entries in another order. -/
  | primitive (path : Path)
  /-- Several children differ; the first few of them. -/
  | multiple (path : Path) (examples : List Difference)

namespace Difference

/-- How many children a difference shows. -/
def maxExamples : Nat := 5

def isNone : Difference → Bool
  | .none => true
  | _ => false

/-- The difference at a location of which some children may differ. No child that differs means
the same children in another order. -/
def ofChildren (path : Path) (children : List Difference) : Difference :=
  match children.filter fun child => !child.isNone with
  | [] => .primitive path
  | [only] => only
  | several => .multiple path (several.take maxExamples)

/-- A comparison with an expected child, for each expected child by name. -/
abbrev Comparison := Path → Node → Difference

/-- The differences of children: first the expected ones in their order, then those that are not
expected. -/
def ofEntries {κ : Type} [DecidableEq κ] (path : Path) (segment : κ → Segment)
    (expected : List (κ × Comparison)) (actual : List (κ × Node)) : List Difference :=
  let found := expected.map fun entry =>
    match actual.lookup entry.1 with
    | some value => entry.2 (path.push (segment entry.1)) value
    | Option.none => .missing (path.push (segment entry.1))
  let extra := actual.filter fun entry => (expected.lookup entry.1).isNone
  found ++ extra.map fun entry => .unexpected (path.push (segment entry.1))

end Difference

namespace Node

mutual

/-- The difference between an expected node and an actual one at a path. -/
def differenceAt : Node → Difference.Comparison
  | expected, path, actual =>
      if expected = actual then .none
      else
        match expected, actual with
        | .struct ⟨fields⟩, .struct others =>
            .ofChildren path
              (Difference.ofEntries path .name (fieldComparisons fields) others.entries)
        | .catalog ⟨entries⟩, .catalog others =>
            .ofChildren path
              (Difference.ofEntries path .entry (entryComparisons entries) others.entries)
        | .sideTable ⟨domain, entries⟩, .sideTable others =>
            if domain = others.domain then
              .ofChildren path
                (Difference.ofEntries path .entry (entryComparisons entries) others.entries)
            else .primitive path
        | _, _ => .primitive path
termination_by structural expected => expected

/-- A comparison for each field of a struct. -/
def fieldComparisons : List (String × Node) → List (String × Difference.Comparison)
  | [] => []
  | (name, value) :: rest => (name, differenceAt value) :: fieldComparisons rest
termination_by structural fields => fields

/-- A comparison for each entry of a container. -/
def entryComparisons : List (Identifier × Node) → List (Identifier × Difference.Comparison)
  | [] => []
  | (key, value) :: rest => (key, differenceAt value) :: entryComparisons rest
termination_by structural entries => entries

end

/-- The difference between an expected tree and an actual one. -/
def difference (expected actual : Node) : Difference := expected.differenceAt .root actual

end Node

end StateTree
