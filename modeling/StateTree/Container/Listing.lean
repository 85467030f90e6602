/-
Module: StateTree.Container.Listing
Purpose: Listings, ordered sets of identifiers that refer into a catalog elsewhere in the tree. A
  listed identifier whose entity is gone stays listed; it dangles.
-/
import StateTree.Container.Catalog
import StateTree.Path.Basic

namespace StateTree

/-- Identifiers of entities in the catalog at `domain`. -/
structure Listing where
  domain : Path
  ids : List Identifier
deriving DecidableEq

namespace Listing

/-- A listing of nothing. -/
def empty (domain : Path) : Listing := ⟨domain, []⟩

def size (listing : Listing) : Nat := listing.ids.length

def isEmpty (listing : Listing) : Bool := listing.ids.isEmpty

/-- Whether an identifier is listed, dangling or not. -/
def contains (listing : Listing) (id : Identifier) : Bool := id ∈ listing.ids

/-- List an identifier, at the end unless it is listed already. -/
def insert (listing : Listing) (id : Identifier) : Listing :=
  if id ∈ listing.ids then listing else ⟨listing.domain, listing.ids ++ [id]⟩

/-- Take an identifier off the list. -/
def erase (listing : Listing) (id : Identifier) : Listing :=
  ⟨listing.domain, listing.ids.filter (· != id)⟩

/-- The listing of these identifiers, each at its first position. -/
def ofList (domain : Path) (ids : List Identifier) : Listing :=
  ids.foldl insert (empty domain)

/-- Whether an identifier is listed although `catalog` has no such entity. -/
def isDangling {α : Type} (listing : Listing) (id : Identifier) (catalog : Catalog α) : Bool :=
  listing.contains id && !catalog.contains id

/-- The listed entities that `catalog` has, in the order of the listing. -/
def valuesIn {α : Type} (listing : Listing) (catalog : Catalog α) : List α :=
  listing.ids.filterMap catalog.get?

/-- Whether two listings have the same domain and the same identifiers in the same order. -/
def equals (listing other : Listing) : Bool :=
  listing.domain == other.domain && listing.ids == other.ids

end Listing

end StateTree
