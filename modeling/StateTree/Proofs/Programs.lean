/-
Module: StateTree.Proofs.Programs
Purpose: What a program on a log ensures although others call the log between its calls. An
  assertion carries an invariant of the ledger over each call, and whatever is known of an answer
  has to stay true while the ledger grows. A call may also fail for the time being, with no effect.
-/
import StateTree.Proofs.Ledger

namespace StateTree

/-- A backend that is out of reach for the time being says one of two things. -/
theorem LogError.transient_cases {error : LogError} (transient : error.isTransient = true) :
    error = .io ∨ ∃ reason, error = .backend reason := by
  cases error with
  | io => exact Or.inl rfl
  | backend reason => exact Or.inr ⟨reason, rfl⟩
  | _ => cases transient

namespace LogProgram

variable {α β : Type}

/-- Whatever others do between its calls, a program keeps the invariant, and ends as `post` says. -/
def Ensures (invariant : Ledger → Prop) (post : Except LogError α → Ledger → Prop) :
    LogProgram α → Ledger → Prop
  | .done result, ledger => post result ledger
  | .rest _ next, ledger => next.Ensures invariant post ledger
  | .ask call next, ledger => ∀ later, ledger.Grows later → invariant later →
      invariant (later.answer call).2 ∧
        (next (later.answer call).1).Ensures invariant post (later.answer call).2 ∧
        ∀ error : LogError, error.isTransient = true →
          (next (.error error)).Ensures invariant post later

/-- An assertion that stays true while the ledger grows. -/
def Stable (assertion : Ledger → Prop) : Prop :=
  ∀ before after, before.Grows after → assertion before → assertion after

variable {invariant : Ledger → Prop} {post : Except LogError α → Ledger → Prop}

/-- What a program ensures it ensures from any later ledger on. -/
theorem Ensures.later {program : LogProgram α} {ledger later : Ledger}
    (stable : ∀ result, Stable (post result)) (ensures : program.Ensures invariant post ledger)
    (grows : ledger.Grows later) : program.Ensures invariant post later := by
  induction program generalizing ledger with
  | done result => exact stable result _ _ grows ensures
  | rest time next ih => exact ih ensures grows
  | ask call next ih =>
      intro after further holds
      exact ensures after (grows.trans further) holds

/-- A program that ensures something ensures what follows from it. -/
theorem Ensures.weaken {weaker : Except LogError α → Ledger → Prop} {program : LogProgram α}
    {ledger : Ledger} (ensures : program.Ensures invariant post ledger)
    (implies : ∀ result later, post result later → weaker result later) :
    program.Ensures invariant weaker ledger := by
  induction program generalizing ledger with
  | done result => exact implies result ledger ensures
  | rest time next ih => exact ih ensures
  | ask call next ih =>
      intro later grows holds
      obtain ⟨kept, answered, refused⟩ := ensures later grows holds
      exact ⟨kept, ih _ answered, fun error transient => ih _ (refused error transient)⟩

/-- What stays true while the ledger grows is still true at the end of a program. -/
theorem Ensures.keep {program : LogProgram α} {ledger : Ledger} {assertion : Ledger → Prop}
    (ensures : program.Ensures invariant post ledger) (stable : Stable assertion)
    (holds : assertion ledger) :
    program.Ensures invariant (fun result later => post result later ∧ assertion later) ledger := by
  induction program generalizing ledger with
  | done result => exact ⟨ensures, holds⟩
  | rest time next ih => exact ih ensures holds
  | ask call next ih =>
      intro later grows kept
      obtain ⟨after, answered, refused⟩ := ensures later grows kept
      have now := stable _ _ grows holds
      refine ⟨after, ih _ answered (stable _ _ (later.grows_answer call) now), ?_⟩
      intro error transient
      exact ih _ (refused error transient) now

/-- What a program ensures under two invariants it ensures under both together. -/
theorem Ensures.both {other : Ledger → Prop} {more : Except LogError α → Ledger → Prop}
    {program : LogProgram α} {ledger : Ledger} (ensures : program.Ensures invariant post ledger)
    (ensures' : program.Ensures other more ledger) :
    program.Ensures (fun ledger => invariant ledger ∧ other ledger)
      (fun result later => post result later ∧ more result later) ledger := by
  induction program generalizing ledger with
  | done result => exact ⟨ensures, ensures'⟩
  | rest time next ih => exact ih ensures ensures'
  | ask call next ih =>
      rintro later grows ⟨holds, holds'⟩
      obtain ⟨kept, answered, refused⟩ := ensures later grows holds
      obtain ⟨kept', answered', refused'⟩ := ensures' later grows holds'
      refine ⟨⟨kept, kept'⟩, ih _ answered answered', ?_⟩
      exact fun error transient => ih _ (refused error transient) (refused' error transient)

/-- One program after another. -/
theorem Ensures.bind {program : LogProgram α} {next : α → LogProgram β}
    {post : Except LogError β → Ledger → Prop} {ledger : Ledger}
    (ensures : program.Ensures invariant (fun result later =>
      match result with
      | .ok value => (next value).Ensures invariant post later
      | .error error => post (.error error) later) ledger) :
    (program >>= next).Ensures invariant post ledger := by
  change (program.bind next).Ensures invariant post ledger
  induction program generalizing ledger with
  | done result =>
      cases result with
      | ok value => exact ensures
      | error error => exact ensures
  | rest time program ih => exact ih ensures
  | ask call answer ih =>
      intro later grows holds
      obtain ⟨kept, answered, refused⟩ := ensures later grows holds
      exact ⟨kept, ih _ answered, fun error transient => ih _ (refused error transient)⟩

/-- One program after another, whatever the result of the first. -/
theorem ensures_then {program : LogProgram α} {next : α → LogProgram β} {ledger : Ledger}
    (first : program.Ensures invariant (fun _ _ => True) ledger)
    (rest : ∀ value later, (next value).Ensures invariant (fun _ _ => True) later) :
    (program >>= next).Ensures invariant (fun _ _ => True) ledger := by
  refine Ensures.bind (first.weaken ?_)
  intro result later known
  cases result with
  | ok value => exact rest value later
  | error error => trivial

/-- A program with another way to go on from its errors. -/
theorem Ensures.recover {program : LogProgram α} {handle : LogError → LogProgram α}
    {ledger : Ledger}
    (ensures : program.Ensures invariant (fun result later =>
      match result with
      | .ok value => post (.ok value) later
      | .error error => (handle error).Ensures invariant post later) ledger) :
    (program.recover handle).Ensures invariant post ledger := by
  induction program generalizing ledger with
  | done result =>
      cases result with
      | ok value => exact ensures
      | error error => exact ensures
  | rest time program ih => exact ih ensures
  | ask call answer ih =>
      intro later grows holds
      obtain ⟨kept, answered, refused⟩ := ensures later grows holds
      exact ⟨kept, ih _ answered, fun error transient => ih _ (refused error transient)⟩

theorem ensures_else {program : LogProgram α} {handle : LogError → LogProgram α} {ledger : Ledger}
    (first : program.Ensures invariant (fun _ _ => True) ledger)
    (rest : ∀ error later, (handle error).Ensures invariant (fun _ _ => True) later) :
    (program.recover handle).Ensures invariant (fun _ _ => True) ledger := by
  apply Ensures.recover
  apply first.weaken
  intro result later known
  cases result with
  | ok value => trivial
  | error error => exact rest error later

/-- What one call ensures from a ledger on, when others may have called before it: the invariant,
and the assertion on its answer; or the assertion on a failure for the time being. -/
def Call (invariant : Ledger → Prop) (post : Except LogError α → Ledger → Prop)
    (call : LogCall α) (ledger : Ledger) : Prop :=
  ∀ later, ledger.Grows later → invariant later →
    invariant (later.answer call).2 ∧ post (later.answer call).1 (later.answer call).2 ∧
      ∀ error : LogError, error.isTransient = true → post (.error error) later

theorem ensures_call {call : LogCall α} {ledger : Ledger}
    (answers : Call invariant post call ledger) :
    (LogProgram.call call).Ensures invariant post ledger := answers

/-- A call that is tried again ensures what one call does. -/
theorem ensures_attempt {call : LogCall α} {delay : Nat → Nat} {failed retries : Nat}
    {ledger : Ledger} (answers : Call invariant post call ledger) :
    (LogProgram.attempt call delay failed retries).Ensures invariant post ledger := by
  induction retries generalizing failed ledger with
  | zero => exact ensures_call answers
  | succ retries ih =>
      intro later grows holds
      obtain ⟨kept, answered, refused⟩ := answers later grows holds
      have again {now : Ledger} (further : later.Grows now) : Call invariant post call now :=
        fun after onward => answers after ((grows.trans further).trans onward)
      have moved := Ledger.grows_answer later call
      refine ⟨kept, ?_, ?_⟩
      · cases result : (later.answer call).1 with
        | ok value =>
            rw [result] at answered
            exact answered
        | error error =>
            rw [result] at answered
            simp only
            split
            · exact ih (again moved)
            · exact answered
      · intro error transient
        simp only [transient, if_true]
        exact ih (again (.refl later))

/-! ### One call at a time -/

/-- A program after its next call, and the ledger then. -/
def advance : LogProgram α → Ledger → LogProgram α × Ledger
  | .done result, ledger => (.done result, ledger)
  | .rest _ next, ledger => (next, ledger)
  | .ask call next, ledger => (next (ledger.answer call).1, (ledger.answer call).2)

/-- A program after its next call has failed. -/
def refuse (error : LogError) : LogProgram α → LogProgram α
  | .done result => .done result
  | .rest _ next => next
  | .ask _ next => next (.error error)

/-- The next call of a program keeps the invariant and what the rest of it ensures. -/
theorem Ensures.advance {program : LogProgram α} {ledger : Ledger}
    (ensures : program.Ensures invariant post ledger) (holds : invariant ledger) :
    invariant (program.advance ledger).2 ∧ ledger.Grows (program.advance ledger).2 ∧
      (program.advance ledger).1.Ensures invariant post (program.advance ledger).2 := by
  cases program with
  | done result => exact ⟨holds, .refl ledger, ensures⟩
  | rest time next => exact ⟨holds, .refl ledger, ensures⟩
  | ask call next =>
      obtain ⟨kept, answered, -⟩ := ensures ledger (.refl ledger) holds
      exact ⟨kept, Ledger.grows_answer ledger call, answered⟩

theorem Ensures.refuse {program : LogProgram α} {ledger : Ledger} {error : LogError}
    (ensures : program.Ensures invariant post ledger) (holds : invariant ledger)
    (transient : error.isTransient = true) :
    (program.refuse error).Ensures invariant post ledger := by
  cases program with
  | done result => exact ensures
  | rest time next => exact ensures
  | ask call next => exact (ensures ledger (.refl ledger) holds).2.2 error transient

end LogProgram

end StateTree
