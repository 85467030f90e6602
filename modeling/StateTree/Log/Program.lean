/-
Module: StateTree.Log.Program
Purpose: Programs of calls of a log backend, kept as data: what is called first, how the answer
  goes on, and how long to rest in between. A program can be run on any backend, and one call of it
  at a time between calls of others.
-/
import StateTree.Log.Call

namespace StateTree

/-- A program that calls a log backend and ends with a result or an error. -/
inductive LogProgram (α : Type) : Type 1 where
  | done (result : Except LogError α)
  | ask {β : Type} (call : LogCall β) (next : Except LogError β → LogProgram α)
  /-- Let so many milliseconds pass, and go on. -/
  | rest (time : Nat) (next : LogProgram α)

namespace LogProgram

variable {α β σ : Type}

/-- Go on with the result of a program, unless that is an error. -/
def bind : LogProgram α → (α → LogProgram β) → LogProgram β
  | .done (.ok value), next => next value
  | .done (.error error), _ => .done (.error error)
  | .ask call answer, next => .ask call fun result => (answer result).bind next
  | .rest time program, next => .rest time (program.bind next)

instance : Monad LogProgram where
  pure value := .done (.ok value)
  bind := LogProgram.bind

/-- End with an error. -/
def fail (error : LogError) : LogProgram α := .done (.error error)

/-- End with what a conversion gives. -/
def ofExcept (result : Except LogError α) : LogProgram α := .done result

/-- Go on in another way when a program ends with an error. -/
def recover : LogProgram α → (LogError → LogProgram α) → LogProgram α
  | .done (.ok value), _ => .done (.ok value)
  | .done (.error error), handle => handle error
  | .ask call answer, handle => .ask call fun result => (answer result).recover handle
  | .rest time program, handle => .rest time (program.recover handle)

/-- One call, whose error is the program's. -/
def call (call : LogCall α) : LogProgram α := .ask call .done

/-- One call, tried again up to `retries` times as long as that could help. `delay` is the time to
rest after each failure, the first of which has the number `failed`. -/
def attempt (call : LogCall α) (delay : Nat → Nat) (failed : Nat) : Nat → LogProgram α
  | 0 => .call call
  | retries + 1 => .ask call fun
      | .ok value => .done (.ok value)
      | .error error =>
          if error.isTransient then
            .rest (delay failed) (attempt call delay (failed + 1) retries)
          else .fail error

/-- Run a program on a backend, from a moment on; the result comes with the moment of the end. -/
def run (perform : {β : Type} → LogCall β → σ → Except LogError β × σ) :
    LogProgram α → σ → Nat → Except LogError α × σ × Nat
  | .done result, state, clock => (result, state, clock)
  | .ask call next, state, clock =>
      let (result, state) := perform call state
      (next result).run perform state clock
  | .rest time next, state, clock => next.run perform state (clock + time)

end LogProgram

end StateTree
