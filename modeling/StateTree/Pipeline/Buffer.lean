/-
Module: StateTree.Pipeline.Buffer
Purpose: What a buffering stage holds back. Each function here is one section under its lock.
-/
import StateTree.Pipeline.Basic
import StateTree.Update

namespace StateTree

/-- Updates that wait for the next flush, in the order of submission, and the thread that hands
them on at the moment. -/
structure Buffer where
  updates : List Update
  forwarder : Option ThreadId

namespace Buffer

/-- A buffer with nothing in it. -/
def empty : Buffer := ⟨[], none⟩

def size (buffer : Buffer) : Nat := buffer.updates.length

/-- Hold an update back. -/
def push (buffer : Buffer) (update : Update) : Buffer :=
  { buffer with updates := buffer.updates ++ [update] }

/-- Take out all that is held back. -/
def takeAll (buffer : Buffer) : List Update × Buffer :=
  (buffer.updates, { buffer with updates := [] })

end Buffer

end StateTree
