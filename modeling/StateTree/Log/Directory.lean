/-
Module: StateTree.Log.Directory
Purpose: A directory of files. A file can be renamed over or removed while it is open; what is
  then written to the open file reaches no name any more.
-/
import StateTree.Log.Error

namespace StateTree

/-- What a name stands for. A file has a number of its own, by which it stays open; its octets are
kept last first, so that writing at the end does not go through all of them. -/
inductive DirectoryEntry where
  | file (number : Nat) (backward : Bytes)
  | folder
deriving DecidableEq

/-- A directory that may not be there yet. Names are in ascending order; `next` is the number of
the next new file. -/
structure Directory where
  isPresent : Bool
  entries : List (String × DirectoryEntry)
  next : Nat

namespace Directory

/-- No directory yet. -/
def absent : Directory := ⟨false, [], 0⟩

/-- The directory, made if it is not there. -/
def make (directory : Directory) : Directory := { directory with isPresent := true }

/-- What is in the directory, with the sizes. A folder counts as one block. -/
def sizes (directory : Directory) : List (String × Nat) :=
  directory.entries.map fun entry =>
    (entry.1,
      match entry.2 with
      | .file _ backward => backward.length
      | .folder => 4096)

/-- The octets of a file; `none` when nothing has the name. -/
def read (directory : Directory) (name : String) : Except LogError (Option Bytes) :=
  match directory.entries.lookup name with
  | some (.file _ backward) => .ok (some backward.reverse)
  | some .folder => .error .io
  | none => .ok none

/-- The octets of a file that has to be there. -/
def contents (directory : Directory) (name : String) : Except LogError Bytes :=
  match directory.read name with
  | .ok (some bytes) => .ok bytes
  | _ => .error .io

/-- A new file under a name. -/
def create (directory : Directory) (name : String) (bytes : Bytes) : Directory :=
  { directory with
    entries := Keyed.putSorted name (.file directory.next bytes.reverse) directory.entries
    next := directory.next + 1 }

/-- Open a file for appending, made if it is not there, and tell its number. -/
def openFile (directory : Directory) (name : String) : Except LogError (Nat × Directory) :=
  if !directory.isPresent then .error .io
  else
    match directory.entries.lookup name with
    | some (.file number _) => .ok (number, directory)
    | some .folder => .error .io
    | none => .ok (directory.next, directory.create name [])

/-- Put a new file in the place of the one of a name, in one step. -/
def replace (directory : Directory) (name : String) (bytes : Bytes) : Except LogError Directory :=
  if !directory.isPresent then .error .io
  else
    match directory.entries.lookup name with
    | some .folder => .error .io
    | _ => .ok (directory.create name bytes)

/-- Change the octets, last first, of the file of a number, whatever its name. -/
def changeBackward (directory : Directory) (number : Nat) (change : Bytes → Bytes) : Directory :=
  { directory with
    entries := directory.entries.map fun entry =>
      match entry.2 with
      | .file found backward =>
          if found = number then (entry.1, .file found (change backward)) else entry
      | .folder => entry }

/-- Change the octets of the file of a number, whatever its name. -/
def changeOpen (directory : Directory) (number : Nat) (change : Bytes → Bytes) : Directory :=
  directory.changeBackward number fun backward => (change backward.reverse).reverse

/-- Write at the end of an open file. -/
def append (directory : Directory) (number : Nat) (bytes : Bytes) : Directory :=
  directory.changeBackward number (bytes.reverse ++ ·)

/-- Cut an open file to a length. -/
def truncate (directory : Directory) (number length : Nat) : Directory :=
  directory.changeOpen number (·.take length)

/-- Change the octets of the file of a name, which has to be there. -/
def change (directory : Directory) (name : String) (change : Bytes → Bytes) :
    Except LogError Directory :=
  match directory.entries.lookup name with
  | some (.file number _) => .ok (directory.changeOpen number change)
  | _ => .error .io

/-- Write a file anew, in its place if it is there. -/
def write (directory : Directory) (name : String) (bytes : Bytes) : Except LogError Directory :=
  match directory.entries.lookup name with
  | some (.file number _) => .ok (directory.changeOpen number fun _ => bytes)
  | some .folder => .error .io
  | none => .ok (directory.make.create name bytes)

/-- Make a folder within the directory. -/
def makeFolder (directory : Directory) (name : String) : Except LogError Directory :=
  match directory.entries.lookup name with
  | some (.file _ _) => .error .io
  | some .folder => .ok directory
  | none =>
      let directory := directory.make
      .ok { directory with entries := Keyed.putSorted name .folder directory.entries }

/-- Remove a file. -/
def remove (directory : Directory) (name : String) : Except LogError Directory :=
  match directory.entries.lookup name with
  | some (.file _ _) =>
      .ok { directory with entries := Keyed.drop name directory.entries }
  | _ => .error .io

end Directory

end StateTree
