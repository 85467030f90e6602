/-
Module: StateTree.Container.SideTable
Purpose: Side tables, values keyed by the identifiers of entities that a catalog elsewhere in the
  tree owns. A key whose entity is gone keeps its value; it dangles.
-/
import StateTree.Container.Catalog
import StateTree.Path.Basic

namespace StateTree

/-- Values keyed by identifiers of entities in the catalog at `domain`. -/
structure SideTable (α : Type) where
  domain : Path
  entries : List (Identifier × α)
deriving DecidableEq

namespace SideTable

variable {α β : Type}

/-- A table with no entries. -/
def empty (domain : Path) : SideTable α := ⟨domain, []⟩

def size (table : SideTable α) : Nat := table.entries.length

def isEmpty (table : SideTable α) : Bool := table.entries.isEmpty

def get? (table : SideTable α) (key : Identifier) : Option α := table.entries.lookup key

def contains (table : SideTable α) (key : Identifier) : Bool := Keyed.contains key table.entries

/-- The keys, in order. -/
def keys (table : SideTable α) : List Identifier := Keyed.keys table.entries

/-- Store a value. A replaced entry keeps its place, a new one goes last. -/
def insert (table : SideTable α) (key : Identifier) (value : α) : SideTable α :=
  ⟨table.domain, Keyed.put key value table.entries⟩

/-- Remove an entry, keeping the order of the others. -/
def erase (table : SideTable α) (key : Identifier) : SideTable α :=
  ⟨table.domain, Keyed.drop key table.entries⟩

/-- The table of these pairs; a later pair replaces an earlier one in its place. -/
def ofPairs (domain : Path) (pairs : List (Identifier × α)) : SideTable α :=
  ⟨domain, Keyed.ofPairs pairs⟩

/-- Whether a key has a value although `catalog` has no such entity. -/
def isDangling (table : SideTable α) (key : Identifier) (catalog : Catalog β) : Bool :=
  table.contains key && !catalog.contains key

/-- The entities of `catalog` that have a value here, each with it, in the order of the table. -/
def liveEntries (table : SideTable α) (catalog : Catalog β) : List (β × α) :=
  table.entries.filterMap fun entry => (catalog.get? entry.1).map fun entity => (entity, entry.2)

/-- Whether two tables have the same domain and the same keys in the same order, with values that
compare as equal. -/
def equals [BEq α] (table other : SideTable α) : Bool :=
  table.domain == other.domain && (table.size == other.size && table.entries == other.entries)

/-- Convert every value. -/
def map (f : α → β) (table : SideTable α) : SideTable β :=
  ⟨table.domain, Keyed.mapValues f table.entries⟩

/-- Convert every value, up to the first that fails. -/
def tryMap {ε : Type} (f : α → Except ε β) (table : SideTable α) : Except ε (SideTable β) := do
  let entries ← Keyed.tryMapValues f table.entries
  pure ⟨table.domain, entries⟩

end SideTable

end StateTree
