/-
Module: StateTree.Format.Toml.Basic
Purpose: The values of a TOML document, and how the lines of a document build its tables. Every key
  is given a value once, and every table is described once.
-/

namespace StateTree

namespace Toml

/-- What brought a table into being, which decides what may still be added to it. -/
inductive Origin where
  /-- A header of its own. -/
  | header
  /-- The header of a table within it. -/
  | implied
  /-- A key with dots. -/
  | dotted
  /-- A table written as a value; it is complete. -/
  | complete
deriving DecidableEq

end Toml

/-- A value in a TOML document. -/
inductive Toml where
  | string (text : String)
  | integer (value : Int)
  | float (value : Float)
  | boolean (value : Bool)
  /-- A date, a time of day, or both; the document's reader has no use for which. -/
  | moment
  | array (items : List Toml)
  | table (origin : Toml.Origin) (entries : List (String × Toml))
  /-- The tables under a header in double brackets. -/
  | tables (items : List (List (String × Toml)))

namespace Toml

/-- The entries of a table. -/
abbrev Entries := List (String × Toml)

/-- A change of a table, which may not be allowed. -/
abbrev Change := Origin → Entries → Option Entries

/-- Give a key another value, or its first one. -/
def put (key : String) (value : Toml) : Entries → Entries
  | [] => [(key, value)]
  | (k, v) :: rest => if k = key then (key, value) :: rest else (k, v) :: put key value rest

/-- Change the last of several tables. -/
def changeLast (change : Entries → Option Entries) : List Entries → Option (List Entries)
  | [] => none
  | [last] => (change last).map fun changed => [changed]
  | first :: rest => (changeLast change rest).map fun changed => first :: changed

/-- Change the table that keys lead to. Tables that are not there yet are made; `origin` says what
makes them. Keys with dots lead through no table that has a header. -/
def descend (made : Origin) (change : Change) : List String → Change
  | [], origin, entries => change origin entries
  | key :: keys, _, entries =>
      match entries.lookup key with
      | none => do
          let inner ← descend made change keys made []
          pure (put key (.table made inner) entries)
      | some (.table origin inner) =>
          if origin = .complete ∨ (made = .dotted ∧ origin = .header) then none
          else do
            let inner ← descend made change keys origin inner
            pure (put key (.table origin inner) entries)
      | some (.tables items) => do
          let items ← changeLast (descend made change keys .header) items
          pure (put key (.tables items) entries)
      | some _ => none

/-- Give a key a value, the key's own table being found through the keys in front of it. -/
def assign (keys : List String) (key : String) (value : Toml) : Change :=
  descend .dotted (fun origin entries =>
    if (entries.lookup key).isSome ∨ (!keys.isEmpty ∧ origin ≠ .dotted) then none
    else some (put key value entries)) keys

/-- Open the table of a header. -/
def openTable (keys : List String) (key : String) : Entries → Option Entries :=
  descend .implied (fun _ entries =>
    match entries.lookup key with
    | none => some (put key (.table .header []) entries)
    | some (.table .implied inner) => some (put key (.table .header inner) entries)
    | some _ => none) keys .header

/-- Open another table under a header in double brackets. -/
def openNext (keys : List String) (key : String) : Entries → Option Entries :=
  descend .implied (fun _ entries =>
    match entries.lookup key with
    | none => some (put key (.tables [[]]) entries)
    | some (.tables items) => some (put key (.tables (items ++ [[]])) entries)
    | some _ => none) keys .header

/-- Change the table that was opened last; `header` holds the keys of its header. -/
def changeOpen (change : Change) : List String → Origin → Entries → Option Entries
  | [], _, entries => change .header entries
  | key :: keys, _, entries =>
      match entries.lookup key with
      | some (.table origin inner) => do
          let inner ← changeOpen change keys origin inner
          pure (put key (.table origin inner) entries)
      | some (.tables items) => do
          let items ← changeLast (changeOpen change keys .header) items
          pure (put key (.tables items) entries)
      | _ => none

end Toml

end StateTree
