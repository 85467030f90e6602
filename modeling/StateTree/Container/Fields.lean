/-
Module: StateTree.Container.Fields
Purpose: The fields of a struct, kept in ascending order of their names. An absent optional field
  is simply not there.
-/
import StateTree.Container.Keyed

namespace StateTree

/-- Named values in ascending order of the names. -/
structure Fields (α : Type) where
  entries : List (String × α)
deriving DecidableEq

namespace Fields

variable {α : Type}

def empty : Fields α := ⟨[]⟩

def size (fields : Fields α) : Nat := fields.entries.length

def isEmpty (fields : Fields α) : Bool := fields.entries.isEmpty

def get? (fields : Fields α) (name : String) : Option α := fields.entries.lookup name

def contains (fields : Fields α) (name : String) : Bool := Keyed.contains name fields.entries

/-- Set a field. -/
def insert (fields : Fields α) (name : String) (value : α) : Fields α :=
  ⟨Keyed.putSorted name value fields.entries⟩

/-- Remove a field. -/
def erase (fields : Fields α) (name : String) : Fields α := ⟨Keyed.drop name fields.entries⟩

/-- The fields of these pairs; a later pair replaces an earlier one. -/
def ofPairs (pairs : List (String × α)) : Fields α := ⟨Keyed.sortedOfPairs pairs⟩

end Fields

end StateTree
