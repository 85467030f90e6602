/-
Module: StateTree.Proofs.Backlog
Purpose: A site that is fed by a log. Its root is what the log makes of a stored snapshot up to some
  position; what waits at the site are the updates of the records from there on, as far as they were
  handed on. The queue counts what was added and what is done.
-/
import StateTree.Proofs.Documents
import StateTree.Proofs.Workplace

namespace StateTree

variable {schema : Schema} {ledger before after : Ledger}

/-! ### What a log makes of its snapshots -/

/-- The update that a record holds, if it holds one. -/
def LogRecord.updates (record : LogRecord) : List Update :=
  match record.body with
  | .update update => [update]
  | .barrier => []

theorem LogRecord.foldInto_eq (record : LogRecord) (root : Node) :
    record.foldInto schema root = record.updates.foldl (Update.foldInto schema) root := by
  unfold LogRecord.foldInto LogRecord.updates
  cases record.body <;> rfl

namespace Ledger

/-- A root is the tree of a stored snapshot, completed by the defaults, with the records from the
position of the snapshot up to another one folded in. -/
def Yields (schema : Schema) (ledger : Ledger) (position : Nat) (root : Node) : Prop :=
  ∃ document ∈ ledger.documents, ∃ tree, document.tree? schema = some tree ∧
    document.position ≤ position ∧ position ≤ ledger.appended.length ∧
      root = ledger.fold schema document.position position (schema.polyfill tree)

variable {position start stop : Nat} {root : Node}

theorem Yields.later (yields : before.Yields schema position root) (grows : before.Grows after) :
    after.Yields schema position root := by
  obtain ⟨document, stored, tree, read, early, inside, same⟩ := yields
  refine ⟨document, grows.documents.subset stored, tree, read, early,
    Nat.le_trans inside grows.appended.length_le, ?_⟩
  rw [grows.fold_eq document.position inside]
  exact same

/-- Further records are folded in. -/
theorem Yields.onward (yields : ledger.Yields schema start root) (onward : start ≤ stop)
    (inside : stop ≤ ledger.appended.length) :
    ledger.Yields schema stop (ledger.fold schema start stop root) := by
  obtain ⟨document, stored, tree, read, early, -, rfl⟩ := yields
  exact ⟨document, stored, tree, read, Nat.le_trans early onward, inside,
    fold_fold early onward _⟩

theorem fold_eq_foldl (start stop : Nat) (root : Node) :
    ledger.fold schema start stop root =
      ((ledger.between start stop).flatMap LogRecord.updates).foldl (Update.foldInto schema)
        root := by
  unfold fold
  generalize ledger.between start stop = records
  induction records generalizing root with
  | nil => rfl
  | cons record rest ih =>
      rw [List.foldl_cons, ih, LogRecord.foldInto_eq, List.flatMap_cons, List.foldl_append]

/-- Where some of the updates of records are applied and others are not, a position divides the
records. -/
theorem exists_between_eq (order : start ≤ stop) {front back : List Update}
    (split : (ledger.between start stop).flatMap LogRecord.updates = front ++ back) :
    ∃ middle, start ≤ middle ∧ middle ≤ stop ∧
      (ledger.between start middle).flatMap LogRecord.updates = front ∧
        (ledger.between middle stop).flatMap LogRecord.updates = back := by
  generalize listed : ledger.between start stop = records at split
  induction records generalizing start front with
  | nil =>
      obtain ⟨rfl, rfl⟩ := List.append_eq_nil_iff.mp split.symm
      exact ⟨start, Nat.le_refl _, order, by simp, by rw [listed]; rfl⟩
  | cons record rest ih =>
      obtain ⟨found, early, others⟩ := between_cons listed
      cases front with
      | nil => exact ⟨start, Nat.le_refl _, order, by simp, by rw [listed]; exact split⟩
      | cons update front =>
          have joined (middle : Nat) (late : start + 1 ≤ middle) :
              (ledger.between start middle).flatMap LogRecord.updates =
                record.updates ++
                  (ledger.between (start + 1) middle).flatMap LogRecord.updates := by
            rw [← between_append (Nat.le_succ start) late, between_succ found]
            rfl
          rw [List.flatMap_cons] at split
          rcases held : record.updates with _ | ⟨first, _ | more⟩
          · rw [held] at split
            obtain ⟨middle, late, inside, same, others⟩ := ih early others split
            refine ⟨middle, Nat.le_of_succ_le late, inside, ?_, others⟩
            rw [joined middle late, held, same]
            rfl
          · rw [held] at split
            obtain ⟨rfl, remaining⟩ := List.cons.inj split
            obtain ⟨middle, late, inside, same, others⟩ := ih early others remaining
            refine ⟨middle, Nat.le_of_succ_le late, inside, ?_, others⟩
            rw [joined middle late, held, same]
            rfl
          · unfold LogRecord.updates at held
            split at held <;> cases held

/-! ### What waits at a site -/

variable {κ : Type} {items more : List (WorkItem κ)} {origin : Node} {count mark : Nat}

/-- A log has fed a site of a root up to `stop`: once `count` of the items that wait there are
processed, the root is what the log yields at a position from `mark` on, and the other items hold
the updates of the records between this position and `stop`. -/
def Feeds (schema : Schema) (ledger : Ledger) (origin : Node) (items : List (WorkItem κ))
    (stop count mark : Nat) : Prop :=
  ∃ position, mark ≤ position ∧ position ≤ stop ∧
    ledger.Yields schema position
      (((items.take count).flatMap WorkItem.updates).foldl (Update.foldInto schema) origin) ∧
    (items.drop count).flatMap WorkItem.updates =
      (ledger.between position stop).flatMap LogRecord.updates

theorem Feeds.later (feeds : before.Feeds schema origin items stop count mark)
    (grows : before.Grows after) (inside : stop ≤ before.appended.length) :
    after.Feeds schema origin items stop count mark := by
  obtain ⟨position, late, early, yields, rest⟩ := feeds
  refine ⟨position, late, early, yields.later grows, ?_⟩
  rw [grows.between_eq position inside]
  exact rest

theorem Feeds.mono {early : Nat} (feeds : ledger.Feeds schema origin items stop count mark)
    (onward : early ≤ mark) : ledger.Feeds schema origin items stop count early := by
  obtain ⟨position, late, rest⟩ := feeds
  exact ⟨position, Nat.le_trans onward late, rest⟩

/-- Once all that waits is processed, all that was handed on is folded in. -/
theorem Feeds.all (feeds : ledger.Feeds schema origin items stop count mark)
    (inside : stop ≤ ledger.appended.length) :
    ledger.Feeds schema origin items stop items.length stop := by
  obtain ⟨position, -, early, yields, rest⟩ := feeds
  refine ⟨stop, Nat.le_refl _, Nat.le_refl _, ?_, by simp⟩
  have whole : (items.take items.length).flatMap WorkItem.updates =
      (items.take count).flatMap WorkItem.updates ++
        (ledger.between position stop).flatMap LogRecord.updates := by
    rw [← rest, ← List.flatMap_append, List.take_append_drop, List.take_length]
  rw [whole, List.foldl_append, ← fold_eq_foldl]
  exact yields.onward early inside

/-- Items that hold the updates of the next records wait behind the others. -/
theorem Feeds.add (feeds : ledger.Feeds schema origin items start count mark)
    (counted : count ≤ items.length) (onward : start ≤ stop)
    (held : more.flatMap WorkItem.updates =
      (ledger.between start stop).flatMap LogRecord.updates) :
    ledger.Feeds schema origin (items ++ more) stop count mark := by
  obtain ⟨position, late, early, yields, rest⟩ := feeds
  refine ⟨position, late, Nat.le_trans early onward, ?_, ?_⟩
  · rw [List.take_append_of_le_length counted]
    exact yields
  · rw [List.drop_append_of_le_length counted, List.flatMap_append, rest, held,
      ← List.flatMap_append, between_append early onward]

/-- The first item that waits is processed. -/
theorem Feeds.process {item : WorkItem κ}
    (feeds : ledger.Feeds schema origin (item :: items) stop count mark)
    (inside : stop ≤ ledger.appended.length) :
    ledger.Feeds schema (item.updates.foldl (Update.foldInto schema) origin) items stop (count - 1)
      mark := by
  obtain ⟨position, late, early, yields, rest⟩ := feeds
  cases count with
  | succ count =>
      rw [List.take_succ_cons, List.flatMap_cons, List.foldl_append] at yields
      exact ⟨position, late, early, yields, rest⟩
  | zero =>
      -- The item is one of the records from `position` on, which are not folded in yet.
      rw [List.drop_zero, List.flatMap_cons] at rest
      obtain ⟨middle, further, short, folded, others⟩ := exists_between_eq early rest.symm
      refine ⟨middle, Nat.le_trans late further, short, ?_, others.symm⟩
      have now := yields.onward further (Nat.le_trans short inside)
      rw [fold_eq_foldl, folded] at now
      exact now

end Ledger

/-! ### What a site counts -/

section Counts

variable {κ : Type}

namespace WorkQueue

variable {α : Type} (queue : WorkQueue α)

theorem claim_spec :
    queue.claim.2.isStarted = queue.isStarted ∧ queue.claim.2.enqueued = queue.enqueued ∧
      queue.claim.2.completed = queue.completed := by
  unfold claim
  split <;> exact ⟨rfl, rfl, rfl⟩

theorem take_spec :
    queue.take.2.isStarted = queue.isStarted ∧ queue.take.2.enqueued = queue.enqueued ∧
      queue.take.2.completed = queue.completed := by
  unfold take
  split <;> exact ⟨rfl, rfl, rfl⟩

end WorkQueue

namespace Workplace

/-- How many items have been processed. The queue counts one as completed when its hooks have
run. -/
def processed (workplace : Workplace κ) : Nat :=
  workplace.site.queue.completed + workplace.drainer.isFinished.toNat

/-- How many items have been added. -/
def enqueued (workplace : Workplace κ) : Nat := workplace.site.queue.enqueued

/-- Every item that was added has been processed or waits. -/
def Counted (workplace : Workplace κ) : Prop :=
  workplace.enqueued = workplace.processed + workplace.waiting.length

/-- Items have been added to what waits at a site, and nothing else has changed, but for the
hooks. -/
structure Gains (items : List (WorkItem κ)) (before after : Workplace κ) : Prop where
  manned : after.Manned
  asleep : before.Asleep → after.Asleep
  waiting : after.waiting = before.waiting ++ items
  processed : after.processed = before.processed
  enqueued : after.enqueued = before.enqueued + items.length
  root : after.site.root = before.site.root
  schema : after.site.schema = before.site.schema
  started : after.site.queue.isStarted = before.site.queue.isStarted

variable {workplace : Workplace κ}

theorem processed_congr {before after : Workplace κ}
    (completed : after.site.queue.completed = before.site.queue.completed)
    (finished : after.drainer.isFinished = before.drainer.isFinished) :
    after.processed = before.processed := by
  rw [processed, completed, finished, processed]

theorem Gains.counted {items : List (WorkItem κ)} {before after : Workplace κ}
    (gains : Gains items before after) (counted : before.Counted) : after.Counted := by
  rw [Counted, gains.enqueued, gains.processed, gains.waiting, List.length_append, counted,
    Nat.add_assoc]

theorem Gains.refl (manned : workplace.Manned) : Gains [] workplace workplace :=
  ⟨manned, id, (List.append_nil _).symm, rfl, rfl, rfl, rfl, rfl⟩

section Changes

variable (manned : workplace.Manned)

include manned

theorem Gains.enqueue (hooks : HookRegistry κ) (item : WorkItem κ) :
    Gains [item] workplace
      (workplace.change ({ workplace.site with hooks := hooks }.enqueue item)) := by
  let queue := workplace.site.queue.extend item
  let site := { workplace.site with hooks := hooks }
  obtain ⟨started, enqueued, completed⟩ := queue.claim_spec
  refine ⟨manned_change manned site queue rfl,
    fun asleep => asleep_change asleep site queue asleep.1, ?_, ?_, enqueued, rfl, rfl, started⟩
  · exact (waiting_change manned site queue rfl).trans (List.append_assoc _ _ _).symm
  · exact processed_congr completed (isFinished_change manned site queue rfl)

theorem Gains.offer (item : WorkItem κ) : Gains [item] workplace (workplace.offer item) :=
  Gains.enqueue manned workplace.site.hooks item

theorem Gains.receive (record : LogRecord) :
    Gains (record.updates.map .apply) workplace (workplace.receive record) := by
  unfold Workplace.receive LogRecord.updates
  cases record.body with
  | update update => exact Gains.offer manned (.apply update)
  | barrier => exact Gains.refl manned

/-- Starting to work changes the root, and nothing of what waits. -/
theorem start_counts (root : Node) :
    (workplace.change (workplace.site.start root)).waiting = workplace.waiting ∧
      (workplace.change (workplace.site.start root)).processed = workplace.processed ∧
      (workplace.change (workplace.site.start root)).enqueued = workplace.enqueued ∧
      (workplace.change (workplace.site.start root)).site.queue.isStarted = true := by
  let queue := { workplace.site.queue with isStarted := true }
  let site := { workplace.site with root := root }
  obtain ⟨started, enqueued, completed⟩ := queue.claim_spec
  refine ⟨waiting_change manned site queue rfl, ?_, enqueued, started⟩
  exact processed_congr completed (isFinished_change manned site queue rfl)

end Changes

/-- A drainer that holds nothing processes nothing. -/
theorem counts_of_resting (resting : workplace.drainer.isHolding = false) :
    workplace.step.processed = workplace.processed ∧
      workplace.step.enqueued = workplace.enqueued := by
  have finished := (step_of_resting resting).2.1
  obtain ⟨site, drainer⟩ := workplace
  unfold processed enqueued
  rw [finished]
  cases drainer with
  | absent => exact ⟨rfl, rfl⟩
  | arriving =>
      obtain ⟨-, enqueued, completed⟩ := site.queue.take_spec
      exact ⟨completed, enqueued⟩
  | holding item => cases resting
  | finished =>
      obtain ⟨-, enqueued, completed⟩ :=
        { site.queue with completed := site.queue.completed + 1 }.take_spec
      exact ⟨completed, enqueued⟩

/-- The item that the drainer holds is the first that waits, and is processed next. -/
theorem step_of_holding {item : WorkItem κ} (held : workplace.drainer = .holding item) :
    workplace.waiting = item :: workplace.step.waiting ∧
      workplace.step.processed = workplace.processed + 1 ∧
      workplace.step.enqueued = workplace.enqueued ∧
      workplace.step.site.queue.isStarted = workplace.site.queue.isStarted ∧
      workplace.step.site.root =
        item.updates.foldl (Update.foldInto workplace.site.schema) workplace.site.root := by
  obtain ⟨site, drainer⟩ := workplace
  cases held
  obtain ⟨root, -, queue⟩ := process_spec site item
  refine ⟨?_, ?_, ?_, ?_, root⟩
  · simp [waiting, step, queue, Drainer.items]
  · simp [processed, step, queue, Drainer.isFinished]
  · exact congrArg WorkQueue.enqueued queue
  · exact congrArg WorkQueue.isStarted queue

/-- The drainer adds nothing, and loses nothing. -/
theorem step_counts (counted : workplace.Counted) :
    workplace.step.Counted ∧ workplace.step.enqueued = workplace.enqueued ∧
      workplace.step.site.queue.isStarted = workplace.site.queue.isStarted := by
  cases resting : workplace.drainer.isHolding with
  | false =>
      obtain ⟨waiting, -, -, -, -, started⟩ := step_of_resting resting
      obtain ⟨processed, enqueued⟩ := counts_of_resting resting
      refine ⟨?_, enqueued, started⟩
      rw [Counted, enqueued, processed, waiting]
      exact counted
  | true =>
      obtain ⟨item, held⟩ := Drainer.exists_of_isHolding resting
      obtain ⟨waiting, processed, enqueued, started, -⟩ := step_of_holding held
      refine ⟨?_, enqueued, started⟩
      rw [Counted, waiting, List.length_cons] at counted
      rw [Counted, enqueued, processed, counted]
      omega

/-- Whoever waits for the first `target` items has the fewer of them left the more are processed. -/
theorem feeds_step {schema : Schema} {ledger : Ledger} {stop target mark : Nat}
    (typed : workplace.site.schema = schema) (inside : stop ≤ ledger.appended.length)
    (feeds : ledger.Feeds schema workplace.site.root workplace.waiting stop
      (target - workplace.processed) mark) :
    ledger.Feeds schema workplace.step.site.root workplace.step.waiting stop
      (target - workplace.step.processed) mark := by
  cases drainer : workplace.drainer with
  | holding item =>
      obtain ⟨waiting, processed, -, -, root⟩ := step_of_holding drainer
      rw [waiting] at feeds
      rw [root, processed, typed, ← Nat.sub_sub]
      exact feeds.process inside
  | absent | arriving | finished =>
      have resting : workplace.drainer.isHolding = false := by rw [drainer]; rfl
      obtain ⟨waiting, -, root, -⟩ := step_of_resting resting
      rw [root, waiting, (counts_of_resting resting).1]
      exact feeds

/-- A queue that is started comes to be empty in time. By induction on what waits. -/
theorem exists_isIdle (attended : workplace.Attended)
    (started : workplace.site.queue.isStarted = true) :
    ∃ steps, (step^[steps] workplace).isIdle = true := by
  simp only [isIdle_iff]
  generalize waits : workplace.waiting = items
  induction items generalizing workplace with
  | nil => exact ⟨0, waits⟩
  | cons item rest ih =>
      have worked {place : Workplace κ} (attended : place.Attended)
          (started : place.site.queue.isStarted = true) (waits : place.waiting = item :: rest)
          (held : place.drainer = .holding item) :
          ∃ steps, (step^[steps] place).waiting = [] := by
        obtain ⟨split, -, -, same, -⟩ := step_of_holding held
        obtain ⟨steps, idle⟩ := ih (attended_step attended) (same.trans started)
          (List.cons.inj (split.symm.trans waits)).2
        exact ⟨steps + 1, idle⟩
      cases resting : workplace.drainer.isHolding with
      | false =>
          obtain ⟨waiting, -, -, -, -, same⟩ := step_of_resting resting
          obtain ⟨steps, idle⟩ := worked (attended_step attended) (same.trans started)
            (waiting.trans waits) (holding_step attended started waits resting)
          exact ⟨steps + 1, idle⟩
      | true =>
          obtain ⟨other, held⟩ := Drainer.exists_of_isHolding resting
          have first : other = item := by
            have split := waits
            rw [waiting, held] at split
            exact (List.cons.inj split).1
          exact worked attended started waits (first ▸ held)

end Workplace

end Counts

end StateTree
