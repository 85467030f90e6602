/-
Module: StateTree.Proofs.Barriers
Purpose: What comes of a flush of a replica of a deployment. It appends a barrier and has the thread
  that follows the log pass it; then it flushes what is below, which for a site means to wait until
  all the work that it has by then is done.
-/
import StateTree.Deployment.Perform
import StateTree.Proofs.Attempts

namespace StateTree.Deployment

variable {next : Caller} {number : Nat} {down : Pipeline} {before after : Deployment}

theorem consulted_cases {α : Type} {program : LogProgram α} {result : Except PipelineError α}
    (ran : (consulted number program).run before = some (result, after)) :
    ∃ answer, consult number program before = some (answer, after) ∧
      result = answer.mapError .ofLog := by
  obtain ⟨answer, _, asked, same⟩ := Run.bind_cases ran
  cases same
  exact ⟨answer, asked, rfl⟩

/-- A flush has appended a barrier with this answer. -/
def Appends (number : Nat) (before : Deployment) (answer : Except LogError Nat)
    (appended : Deployment) : Prop :=
  ∃ state, before.replicas[number]? = some state ∧
    consult number (state.settings.attempt (.append (.fresh 0 before.minted) .barrier))
      { before with minted := before.minted + 1 } = some (answer, appended)

/-- What comes of a flush of a replica, other than on the thread that follows its log. When the
barrier cannot be appended, the flush says why. Otherwise, at a moment after the append, it has
found the replica closed, or given up waiting, or it has found that the replica has passed the
barrier, and goes on below. -/
theorem flushReplica_cases {result : Except PipelineError Unit}
    (apart : before.thread.id ≠ .subscription number)
    (ran : (flushReplica next number down).run before = some (result, after)) :
    (∃ error, Appends number before (.error error) after ∧ result = .error (.ofLog error)) ∨
      ∃ (barrier : Nat) (appended waited : Deployment) (now : Replica),
        Appends number before (.ok barrier) appended ∧
        waited.replicas[number]? = some now ∧
          (now.isClosed = true ∧ result = .error .shutdown ∨
            now.isClosed = false ∧ result = .error (.flushFailure .timeout) ∨
            now.isClosed = false ∧ now.hasPassed barrier = true ∧
              ∃ moment, (next.flush down).run { waited with clock := moment } =
                some (result, after)) := by
  obtain ⟨isFollowing, _, asked, ran⟩ := Attempt.lift_bind_cases ran
  cases asked
  dsimp only at ran
  rw [if_neg (by simpa using apart)] at ran
  obtain ⟨state, _, looked, ran⟩ := Attempt.lift_bind_cases ran
  obtain ⟨rfl, there⟩ := replica_cases looked
  obtain ⟨correlation, _, minted, ran⟩ := Attempt.lift_bind_cases ran
  cases minted
  obtain ⟨barrier, appended, asked, ran⟩ | ⟨error, failed, rfl⟩ := Attempt.bind_cases ran
  · obtain ⟨answer, asked, same⟩ := consulted_cases asked
    cases answer <;> cases same
    refine Or.inr ⟨barrier, appended, ?_⟩
    obtain ⟨deployment, _, got, ran⟩ := Attempt.lift_bind_cases ran
    cases got
    obtain ⟨⟨⟩, waited, awaited, ran⟩ := Attempt.lift_bind_cases ran
    obtain ⟨now, _, looked, ran⟩ := Attempt.lift_bind_cases ran
    obtain ⟨rfl, found⟩ := replica_cases looked
    refine ⟨waited, now, ⟨state, there, asked⟩, found, ?_⟩
    split at ran
    · rename_i closed
      cases ran
      exact Or.inl ⟨closed, rfl⟩
    · rename_i opened
      have opened := Bool.eq_false_iff.mpr opened
      split at ran
      · rename_i passed
        obtain ⟨⟨⟩, _, turned, ran⟩ := Attempt.lift_bind_cases ran
        cases turned
        exact Or.inr (Or.inr ⟨opened, (Bool.and_eq_true_iff.mp passed).1, _, ran⟩)
      · obtain ⟨⟨⟩, _, turned, ran⟩ := Attempt.lift_bind_cases ran
        cases turned
        cases ran
        exact Or.inr (Or.inl ⟨opened, rfl⟩)
  · obtain ⟨answer, asked, same⟩ := consulted_cases failed
    cases answer <;> cases same
    exact Or.inl ⟨_, ⟨state, there, asked⟩, rfl⟩

/-- When the flush of a replica in front of a site returns well, the replica has passed the barrier
of the flush; and the site has done all the work that it has, unless it is not started or the flush
was called by the one who does that work. -/
theorem flush_returned {site : Nat} {standard : Option Node} {depth : Nat}
    (apart : before.thread.id ≠ .subscription number)
    (ran : performWithin depth (.flush (.replica number (.site site standard))) before =
      some (.ok (), after)) :
    ∃ (barrier : Nat) (appended : Deployment) (now : Replica) (own : Station),
      Appends number before (.ok barrier) appended ∧ after.replicas[number]? = some now ∧
        now.isClosed = false ∧ barrier < now.position ∧ after.stations[site]? = some own ∧
          (site ∉ after.thread.draining → own.site.queue.isStarted = true →
            own.site.queue.enqueued ≤ own.site.queue.completed) := by
  cases depth with
  | zero => cases ran
  | succ depth =>
      obtain ⟨error, -, failed⟩ | ⟨barrier, appended, waited, now, appends, found, ends⟩ :=
        flushReplica_cases apart ran
      · cases failed
      · obtain ⟨-, failed⟩ | ⟨-, failed⟩ | ⟨opened, passed, moment, below⟩ := ends
        · cases failed
        · cases failed
        · cases depth with
          | zero => cases below
          | succ depth =>
              obtain ⟨⟨⟩, -, idle⟩ := Attempt.lift_cases below
              obtain ⟨rfl, own, there, done⟩ := awaitIdle_cases idle
              refine ⟨barrier, appended, now, own, appends, found, opened,
                of_decide_eq_true passed, there, fun outside started => ?_⟩
              have reached := done.resolve_left outside
              simpa [WorkQueue.hasReached, started] using reached

end StateTree.Deployment
