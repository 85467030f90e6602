/-
Module: StateTree.Log.Tap
Purpose: A tap on the way to a log backend, through which faults are injected: calls of a sort that
  fail a number of times, and what others do to the backend just before a call of a sort.
-/
import StateTree.Log.Call

namespace StateTree

/-- What is going to happen to calls. An intrusion happens once; backends have the type `σ`. -/
structure Tap (σ : Type) where
  failures : List (LogMethod × Nat)
  intrusions : List (LogMethod × (σ → σ))

namespace Tap

variable {σ : Type}

/-- A tap that lets everything through. -/
def clear : Tap σ := ⟨[], []⟩

/-- Make the next so many calls of a sort fail. -/
def fail (tap : Tap σ) (method : LogMethod) (count : Nat) : Tap σ :=
  { tap with failures := Keyed.put method count tap.failures }

/-- The backend after the intrusion that awaits a call of a sort, if one does. -/
def intrude (tap : Tap σ) (method : LogMethod) (backend : σ) : Tap σ × σ :=
  match tap.intrusions.lookup method with
  | some change => ({ tap with intrusions := Keyed.drop method tap.intrusions }, change backend)
  | none => (tap, backend)

/-- Let a call through to the backend, or fail it. -/
def perform (answer : {α : Type} → LogCall α → σ → Except LogError α × σ) {α : Type}
    (call : LogCall α) (state : Tap σ × σ) : Except LogError α × (Tap σ × σ) :=
  let (tap, backend) := state.1.intrude call.method state.2
  match tap.failures.lookup call.method with
  | some (count + 1) =>
      (.error (.backend s!"injected {call.method.name}"), (tap.fail call.method count, backend))
  | _ =>
      let (result, backend) := answer call backend
      (result, (tap, backend))

end Tap

end StateTree
