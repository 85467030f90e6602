/-
Module: StateTree.Container.Catalog
Purpose: Catalogs, the containers that own entities: maps from identifiers in order of insertion.
-/
import StateTree.Container.Keyed
import StateTree.Identifier

namespace StateTree

/-- Entities by identifier, in order of insertion. -/
structure Catalog (α : Type) where
  entries : List (Identifier × α)
deriving DecidableEq

namespace Catalog

variable {α β : Type}

def empty : Catalog α := ⟨[]⟩

def size (catalog : Catalog α) : Nat := catalog.entries.length

def isEmpty (catalog : Catalog α) : Bool := catalog.entries.isEmpty

def get? (catalog : Catalog α) (id : Identifier) : Option α := catalog.entries.lookup id

def contains (catalog : Catalog α) (id : Identifier) : Bool := Keyed.contains id catalog.entries

/-- The identifiers, in order. -/
def ids (catalog : Catalog α) : List Identifier := Keyed.keys catalog.entries

/-- Store an entity under an identifier. A replaced entry keeps its place, a new one goes last. -/
def insert (catalog : Catalog α) (id : Identifier) (entity : α) : Catalog α :=
  ⟨Keyed.put id entity catalog.entries⟩

/-- Remove an entry, keeping the order of the others. -/
def erase (catalog : Catalog α) (id : Identifier) : Catalog α := ⟨Keyed.drop id catalog.entries⟩

/-- The catalog of these pairs; a later pair replaces an earlier one in its place. -/
def ofPairs (pairs : List (Identifier × α)) : Catalog α := ⟨Keyed.ofPairs pairs⟩

/-- Whether two catalogs have the same identifiers in the same order, with entities that compare as
equal. Two that share their storage are not gone through. -/
def equals [BEq α] (catalog other : Catalog α) (isShared : Bool) : Bool :=
  isShared || (catalog.size == other.size && catalog.entries == other.entries)

/-- Convert every entity. -/
def map (f : α → β) (catalog : Catalog α) : Catalog β := ⟨Keyed.mapValues f catalog.entries⟩

/-- Convert every entity, up to the first that fails. -/
def tryMap {ε : Type} (f : α → Except ε β) (catalog : Catalog α) : Except ε (Catalog β) := do
  let entries ← Keyed.tryMapValues f catalog.entries
  pure ⟨entries⟩

end Catalog

end StateTree
