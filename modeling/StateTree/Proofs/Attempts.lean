/-
Module: StateTree.Proofs.Attempts
Purpose: Runs and attempts taken apart: what has come of a sequence came of its first part and then
  of the rest. A relation of deployments that goes on from one step to the next holds over a whole
  run if it holds over its steps.
-/
import Mathlib.Order.Defs.Unbundled
import StateTree.Deployment.Working

namespace StateTree

variable {α β : Type} {before after : Deployment}

/-- What has come of a sequence came of its first part, and then of the rest. -/
theorem Run.bind_cases {first : Run α} {next : α → Run β} {result : β}
    (ran : (first >>= next) before = some (result, after)) :
    ∃ value middle, first before = some (value, middle) ∧
      next value middle = some (result, after) := by
  change (first before).bind (fun pair => next pair.1 pair.2) = _ at ran
  obtain ⟨pair, here, rest⟩ := Option.bind_eq_some_iff.mp ran
  exact ⟨pair.1, pair.2, here, rest⟩

/-- Before an item is dealt with, those in front of it are. -/
theorem Run.forM_split {γ : Type} {act : γ → Run Unit} {front rest : List γ} {item : γ}
    (ran : (front ++ item :: rest).forM act before = some ((), after)) :
    ∃ middle later, front.forM act before = some ((), middle) ∧
      act item middle = some ((), later) := by
  induction front generalizing before with
  | nil =>
      obtain ⟨⟨⟩, later, here, -⟩ := Run.bind_cases ran
      exact ⟨before, later, rfl, here⟩
  | cons other front ih =>
      obtain ⟨⟨⟩, between, first, ran⟩ := Run.bind_cases ran
      obtain ⟨middle, later, made, here⟩ := ih ran
      refine ⟨middle, later, ?_, here⟩
      change (act other before).bind _ = _
      rw [first]
      exact made

namespace Attempt

variable {next : α → Attempt β} {result : Except PipelineError β}

/-- The first part of an attempt fails, or the rest goes on from it. -/
theorem bind_cases {first : Attempt α}
    (ran : (first >>= next).run before = some (result, after)) :
    (∃ value middle, first.run before = some (.ok value, middle) ∧
        (next value).run middle = some (result, after)) ∨
      ∃ error, first.run before = some (.error error, after) ∧ result = .error error := by
  obtain ⟨value, middle, here, rest⟩ := Run.bind_cases ran
  cases value with
  | ok value => exact Or.inl ⟨value, middle, here, rest⟩
  | error error =>
      cases rest
      exact Or.inr ⟨error, here, rfl⟩

/-- What cannot fail is an attempt with that value. -/
theorem lift_cases {run : Run α} {result : Except PipelineError α}
    (ran : (liftM run : Attempt α).run before = some (result, after)) :
    ∃ value, result = .ok value ∧ run before = some (value, after) := by
  change (run before).bind (fun pair => some (Except.ok pair.1, pair.2)) = _ at ran
  obtain ⟨pair, here, same⟩ := Option.bind_eq_some_iff.mp ran
  cases same
  exact ⟨pair.1, rfl, here⟩

/-- What cannot fail does not end an attempt. -/
theorem lift_bind_cases {first : Run α}
    (whole : ((liftM first : Attempt α) >>= next).run before = some (result, after)) :
    ∃ value middle, first before = some (value, middle) ∧
      (next value).run middle = some (result, after) := by
  obtain ⟨value, middle, here, rest⟩ := Run.bind_cases whole
  obtain ⟨value, rfl, ran⟩ := lift_cases here
  exact ⟨value, middle, ran, rest⟩

/-- Nor does an attempt whose failure is only looked at. -/
theorem outcome_bind_cases {first : Attempt α} {next : Except PipelineError α → Attempt β}
    (ran : (Deployment.outcome first >>= next).run before = some (result, after)) :
    ∃ value middle, first.run before = some (value, middle) ∧
      (next value).run middle = some (result, after) :=
  lift_bind_cases ran

end Attempt

namespace Deployment

/-- Who looks something up leaves the deployment, and has found it. -/
theorem demand_cases {value : Option α} {found : α}
    (ran : demand value before = some (found, after)) : before = after ∧ value = some found := by
  obtain ⟨held, there, same⟩ := Option.map_eq_some_iff.mp ran
  cases same
  exact ⟨rfl, there⟩

theorem buffer_cases {number : Nat} {held : Buffer}
    (ran : buffer number before = some (held, after)) :
    before = after ∧ before.buffers[number]? = some held :=
  demand_cases ran

theorem station_cases {number : Nat} {own : Station}
    (ran : station number before = some (own, after)) :
    before = after ∧ before.stations[number]? = some own :=
  demand_cases ran

theorem worker_cases {number : Nat} {state : Worker}
    (ran : worker number before = some (state, after)) :
    before = after ∧ before.workers[number]? = some state :=
  demand_cases ran

theorem replica_cases {number : Nat} {state : Replica}
    (ran : replica number before = some (state, after)) :
    before = after ∧ before.replicas[number]? = some state :=
  demand_cases ran

theorem hookUpdate_cases {path : Path} {draft : Draft} {below : Option Path} {update : Update}
    (ran : hookUpdate path draft below before = some (update, after)) : before = after := by
  obtain ⟨_, _, got, ran⟩ := Run.bind_cases ran
  cases got
  cases below <;> cases ran <;> rfl

/-- What is done on another thread leaves the thread that is running. -/
theorem onThread_cases {id : ThreadId} {run : Run α} {value : α}
    (ran : onThread id run before = some (value, after)) :
    ∃ middle, run { before with thread := .new id } = some (value, middle) ∧
      after = { middle with thread := before.thread } := by
  obtain ⟨_, _, got, ran⟩ := Run.bind_cases ran
  cases got
  obtain ⟨⟨⟩, _, entered, ran⟩ := Run.bind_cases ran
  cases entered
  obtain ⟨value, middle, inside, ran⟩ := Run.bind_cases ran
  cases ran
  exact ⟨middle, inside, rfl⟩

/-- Who has waited for a site does its work, or finds that what it had to do is done. -/
theorem awaitIdle_cases {number : Nat} (ran : awaitIdle number before = some ((), after)) :
    before = after ∧ ∃ own, before.stations[number]? = some own ∧
      (number ∈ before.thread.draining ∨
        own.site.queue.hasReached own.site.queue.enqueued = true) := by
  obtain ⟨own, _, looked, ran⟩ := Run.bind_cases ran
  obtain ⟨rfl, found⟩ := station_cases looked
  obtain ⟨_, _, got, ran⟩ := Run.bind_cases ran
  cases got
  dsimp only at ran
  split at ran
  · rename_i done
    cases ran
    exact ⟨rfl, own, found, done⟩
  · cases ran

end Deployment

/-! ### What runs keep -/

/-- Whatever a run comes to, what it leaves stands in this relation to what it began with. -/
def Run.Keeps (kept : Deployment → Deployment → Prop) (run : Run α) : Prop :=
  ∀ before value after, run before = some (value, after) → kept before after

/-- The same goes for an attempt, and for what it does until it fails. -/
def Attempt.Keeps (kept : Deployment → Deployment → Prop) (attempt : Attempt α) : Prop :=
  Run.Keeps kept attempt.run

variable {kept : Deployment → Deployment → Prop}

/-- What a run keeps it keeps as an attempt. -/
theorem Attempt.Keeps.lift {run : Run α} (keeps : run.Keeps kept) :
    (liftM run : Attempt α).Keeps kept := by
  intro before result after ran
  obtain ⟨value, -, ran⟩ := Attempt.lift_cases ran
  exact keeps _ _ _ ran

theorem Attempt.Keeps.outcome {attempt : Attempt α} (keeps : attempt.Keeps kept) :
    (Deployment.outcome attempt).Keeps kept :=
  lift keeps

/-- What goes on from the deployment as it is. -/
theorem Run.Keeps.get {next : Deployment → Run α}
    (late : ∀ before value after, next before before = some (value, after) → kept before after) :
    (MonadState.get >>= next : Run α).Keeps kept :=
  fun before value after ran => late before value after ran

theorem Run.Keeps.modify {change : Deployment → Deployment}
    (changes : ∀ deployment, kept deployment (change deployment)) :
    (modify change : Run Unit).Keeps kept := by
  intro before value after ran
  cases ran
  exact changes before

variable [IsPreorder Deployment kept]

namespace Run.Keeps

/-- What each of two parts keeps, one after the other, the whole keeps. -/
theorem bind {first : Run α} {next : α → Run β} (early : first.Keeps kept)
    (late : ∀ value, (next value).Keeps kept) : (first >>= next).Keeps kept := by
  intro before result after ran
  obtain ⟨value, middle, here, rest⟩ := Run.bind_cases ran
  exact trans_of kept (early _ _ _ here) (late value _ _ _ rest)

/-- What only looks at the deployment keeps everything. -/
theorem look {run : Run α}
    (looks : ∀ before value after, run before = some (value, after) → before = after) :
    run.Keeps kept :=
  fun before value after ran => looks before value after ran ▸ refl_of kept before

theorem pure (value : α) : (Pure.pure value : Run α).Keeps kept :=
  look fun _ _ _ ran => by cases ran; rfl

/-- What each of the parts keeps, any number of them keep, by induction on the parts. -/
theorem forM {γ : Type} {act : γ → Run Unit} (keeps : ∀ item, (act item).Keeps kept)
    (items : List γ) : (items.forM act).Keeps kept := by
  induction items with
  | nil => exact .pure ()
  | cons item rest ih => exact .bind (keeps item) fun _ => ih

/-- Each item finds what was kept since the first one began. -/
theorem forM_begins {γ : Type} {act : γ → Run Unit} (keeps : ∀ item, (act item).Keeps kept)
    {front rest : List γ} {item : γ}
    (ran : (front ++ item :: rest).forM act before = some ((), after)) :
    ∃ middle later, front.forM act before = some ((), middle) ∧
      act item middle = some ((), later) ∧ kept before middle := by
  obtain ⟨middle, later, made, here⟩ := Run.forM_split ran
  exact ⟨middle, later, made, here, forM keeps front _ _ _ made⟩

end Run.Keeps

namespace Attempt.Keeps

theorem bind {first : Attempt α} {next : α → Attempt β} (early : first.Keeps kept)
    (late : ∀ value, (next value).Keeps kept) : (first >>= next).Keeps kept := by
  intro before result after ran
  obtain ⟨value, middle, here, rest⟩ | ⟨error, failed, -⟩ := Attempt.bind_cases ran
  · exact trans_of kept (early _ _ _ here) (late value _ _ _ rest)
  · exact early _ _ _ failed

theorem pure (value : α) : (Pure.pure value : Attempt α).Keeps kept := Run.Keeps.pure _

theorem throw (error : PipelineError) : (MonadExcept.throw error : Attempt α).Keeps kept :=
  Run.Keeps.pure _

theorem forM {γ : Type} {act : γ → Attempt Unit} (keeps : ∀ item, (act item).Keeps kept)
    (items : List γ) : (items.forM act).Keeps kept := by
  induction items with
  | nil => exact .pure ()
  | cons item rest ih => exact .bind (keeps item) fun _ => ih

end Attempt.Keeps

namespace Deployment

variable {number : Nat}

/-- Whatever is looked up, nothing is changed by it. -/
theorem keeps_demand (value : Option α) : (demand value).Keeps kept :=
  .look fun _ _ _ looked => (demand_cases looked).1

theorem keeps_get : (get : Run Deployment).Keeps kept :=
  .look fun _ _ _ got => by cases got; rfl

theorem keeps_station : (station number).Keeps kept :=
  .look fun _ _ _ looked => (station_cases looked).1

theorem keeps_buffer : (buffer number).Keeps kept :=
  .look fun _ _ _ looked => (buffer_cases looked).1

theorem keeps_worker : (worker number).Keeps kept :=
  .look fun _ _ _ looked => (worker_cases looked).1

theorem keeps_replica : (replica number).Keeps kept :=
  .look fun _ _ _ looked => (replica_cases looked).1

theorem keeps_isOn (id : ThreadId) : (isOn id).Keeps kept :=
  .look fun _ _ _ looked => by cases looked; rfl

theorem keeps_hookUpdate {path : Path} {draft : Draft} {below : Option Path} :
    (hookUpdate path draft below).Keeps kept :=
  .look fun _ _ _ ran => hookUpdate_cases ran

end Deployment

end StateTree
