/-
Module: StateTree.Container.Keyed
Purpose: Lists of key-value pairs as maps. `put` and `drop` keep the order of insertion: a key that
  is already there keeps its place, a new one goes last, and removal leaves the order of the rest.
  `putSorted` keeps the keys in ascending order instead.
-/

namespace StateTree.Keyed

variable {κ α β : Type}

/-- The keys, in order. -/
def keys (entries : List (κ × α)) : List κ := entries.map Prod.fst

/-- No key stands at two places. -/
def Distinct (entries : List (κ × α)) : Prop := (keys entries).Nodup

section Ordered

variable [DecidableEq κ]

/-- Whether a key is present. -/
def contains (key : κ) (entries : List (κ × α)) : Bool := (entries.lookup key).isSome

/-- Store a value under a key: in the key's place if it has one, at the end otherwise. -/
def put (key : κ) (value : α) : List (κ × α) → List (κ × α)
  | [] => [(key, value)]
  | (k, v) :: rest => if k = key then (key, value) :: rest else (k, v) :: put key value rest

/-- Remove a key. -/
def drop (key : κ) (entries : List (κ × α)) : List (κ × α) :=
  entries.filter fun entry => entry.1 != key

/-- Store pairs one after the other. -/
def putAll (entries : List (κ × α)) (pairs : List (κ × α)) : List (κ × α) :=
  pairs.foldl (fun map pair => put pair.1 pair.2 map) entries

/-- The map that holds these pairs: of two values for a key the later one, in the place of the
earlier one. -/
def ofPairs (pairs : List (κ × α)) : List (κ × α) := putAll [] pairs

end Ordered

/-- Convert every value. -/
def mapValues (f : α → β) (entries : List (κ × α)) : List (κ × β) :=
  entries.map fun pair => (pair.1, f pair.2)

/-- Convert every value, in order, up to the first that fails. -/
def tryMapValues {ε : Type} (f : α → Except ε β) : List (κ × α) → Except ε (List (κ × β))
  | [] => .ok []
  | (k, v) :: rest => do
      let value ← f v
      let values ← tryMapValues f rest
      pure ((k, value) :: values)

/-- Store a value under a text key, keeping the keys in ascending order. -/
def putSorted (key : String) (value : α) : List (String × α) → List (String × α)
  | [] => [(key, value)]
  | (k, v) :: rest =>
      if key < k then (key, value) :: (k, v) :: rest
      else if key = k then (key, value) :: rest
      else (k, v) :: putSorted key value rest

/-- The sorted map that holds these pairs: of two values for a key the later one. -/
def sortedOfPairs (pairs : List (String × α)) : List (String × α) :=
  pairs.foldl (fun map pair => putSorted pair.1 pair.2 map) []

end StateTree.Keyed
