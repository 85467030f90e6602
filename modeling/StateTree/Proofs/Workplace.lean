/-
Module: StateTree.Proofs.Workplace
Purpose: A site and the one who drains its queue, step by step. Updates take effect in the order in
  which they were added: what the root comes to be in the end does not depend on how far the drainer
  is, and each added update changes it as it would change that root.
-/
import Mathlib.Logic.Function.Iterate
import StateTree.Log.Replay
import StateTree.Site.Basic

namespace StateTree

/-- What the drainer of a site's queue is at. -/
inductive Drainer (κ : Type) where
  | absent
  /-- The queue has found its drainer, who has not taken an item yet. -/
  | arriving
  | holding (item : WorkItem κ)
  /-- The item has been processed. -/
  | finished

/-- A site with the drainer of its queue. -/
structure Workplace (κ : Type) where
  site : Site κ
  drainer : Drainer κ

/-- The update that an item of work carries. -/
def WorkItem.updates {κ : Type} : WorkItem κ → List Update
  | .apply update => [update]
  | .introduce _ => []

/-- The item that the drainer has taken and not processed yet. -/
def Drainer.items {κ : Type} : Drainer κ → List (WorkItem κ)
  | .holding item => [item]
  | _ => []

/-- The update that the drainer has taken and not applied yet. -/
def Drainer.updates {κ : Type} : Drainer κ → List Update
  | .holding item => item.updates
  | _ => []

def Drainer.isHolding {κ : Type} : Drainer κ → Bool
  | .holding _ => true
  | _ => false

theorem Drainer.exists_of_isHolding {κ : Type} {drainer : Drainer κ}
    (holds : drainer.isHolding = true) : ∃ item, drainer = .holding item := by
  cases drainer with
  | holding item => exact ⟨item, rfl⟩
  | _ => cases holds

/-- Whether the drainer has processed an item and is not done with it. -/
def Drainer.isFinished {κ : Type} : Drainer κ → Bool
  | .finished => true
  | _ => false

/-- A queue with one more item, before anyone has claimed it. -/
def WorkQueue.extend {α : Type} (queue : WorkQueue α) (item : α) : WorkQueue α :=
  { queue with pending := queue.pending ++ [item], enqueued := queue.enqueued + 1 }

namespace Workplace

variable {κ : Type}

/-- A change to the site; whoever makes it becomes the drainer if the queue says so. -/
def change (workplace : Workplace κ) (changed : Bool × Site κ) : Workplace κ :=
  ⟨changed.2, if changed.1 then .arriving else workplace.drainer⟩

/-- Add an item of work. -/
def offer (workplace : Workplace κ) (item : WorkItem κ) : Workplace κ :=
  workplace.change (workplace.site.enqueue item)

/-- The same place with other hooks. They have no part in who drains the queue, and of what. -/
def withHooks (workplace : Workplace κ) (hooks : HookRegistry κ) : Workplace κ :=
  ⟨{ workplace.site with hooks := hooks }, workplace.drainer⟩

/-- To register a hook is to enter it among the hooks, and to offer the item that introduces it. -/
theorem register_eq (workplace : Workplace κ) (name : String) (scope : Accessor) (priority : Int)
    (payload : κ) :
    ∃ hooks hook, workplace.site.register name scope priority payload =
        (workplace.withHooks hooks).site.enqueue (.introduce hook) ∧
      workplace.change (workplace.site.register name scope priority payload) =
        (workplace.withHooks hooks).offer (.introduce hook) :=
  ⟨_, _, rfl, rfl⟩

/-- Hand on what a record holds. -/
def receive (workplace : Workplace κ) (record : LogRecord) : Workplace κ :=
  match record.body with
  | .update update => workplace.offer (.apply update)
  | .barrier => workplace

/-- The drainer has asked for the next item. -/
def hold (taken : Option (WorkItem κ) × Site κ) : Workplace κ :=
  ⟨taken.2, (taken.1.map Drainer.holding).getD .absent⟩

/-- The next step of the drainer. -/
def step (workplace : Workplace κ) : Workplace κ :=
  match workplace.drainer with
  | .absent => workplace
  | .arriving => hold workplace.site.take
  | .holding item => ⟨(workplace.site.process item).1, .finished⟩
  | .finished => hold workplace.site.finish

/-- The items that were added and have not been processed, in their order. -/
def waiting (workplace : Workplace κ) : List (WorkItem κ) :=
  workplace.drainer.items ++ workplace.site.queue.pending

/-- The updates that were added and have not been applied yet, in their order. -/
def owed (workplace : Workplace κ) : List Update :=
  workplace.drainer.updates ++ workplace.site.queue.pending.flatMap WorkItem.updates

/-- Whether the queue is empty and its drainer has nothing to apply. -/
def isIdle (workplace : Workplace κ) : Bool :=
  workplace.site.queue.pending.isEmpty && !workplace.drainer.isHolding

theorem owed_of_isIdle {workplace : Workplace κ} (idle : workplace.isIdle = true) :
    workplace.owed = [] := by
  obtain ⟨site, drainer⟩ := workplace
  simp only [isIdle, Bool.and_eq_true, List.isEmpty_iff, Bool.not_eq_eq_eq_not,
    Bool.not_true] at idle
  rw [owed, idle.1]
  cases drainer with
  | holding item => cases idle.2
  | _ => rfl

/-- A root with all that is owed folded in. -/
def destined (workplace : Workplace κ) (root : Node) : Node :=
  workplace.owed.foldl (Update.foldInto workplace.site.schema) root

/-- The queue is drained by the one who is there, and by nobody else. -/
def Manned (workplace : Workplace κ) : Prop :=
  workplace.site.queue.isDraining = false → workplace.drainer = .absent

/-- Work that can be done is not left alone. -/
def Attended (workplace : Workplace κ) : Prop :=
  workplace.drainer = .absent → workplace.site.queue.isDraining = false ∧
    (workplace.site.queue.isStarted = true → workplace.site.queue.pending = [])

/-- The queue is not started, and nobody drains it. -/
def Asleep (workplace : Workplace κ) : Prop :=
  workplace.site.queue.isStarted = false ∧ workplace.drainer = .absent

/-! ### Changes from outside -/

/-- A claim of the queue goes to nobody while someone drains it. -/
theorem claim_cases {α : Type} (queue : WorkQueue α) :
    (queue.claim.1 = false ∧ queue.claim.2 = queue) ∨
      (queue.claim.1 = true ∧ queue.isDraining = false ∧
        queue.claim.2 = { queue with isDraining := true }) := by
  unfold WorkQueue.claim
  split
  · rename_i free
    simp only [Bool.and_eq_true, Bool.not_eq_eq_eq_not, Bool.not_true] at free
    exact Or.inr ⟨rfl, free.1.2, rfl⟩
  · exact Or.inl ⟨rfl, rfl⟩

section Claim

variable {workplace : Workplace κ} (manned : workplace.Manned) (site : Site κ)
  (queue : WorkQueue (WorkItem κ))

include manned

theorem manned_change (draining : queue.isDraining = workplace.site.queue.isDraining) :
    (workplace.change (queue.claim.1, { site with queue := queue.claim.2 })).Manned := by
  rcases claim_cases queue with ⟨stays, same⟩ | ⟨drains, free, claimed⟩
  · intro idle
    simp only [change, same, stays] at idle ⊢
    exact manned (draining.symm.trans idle)
  · intro idle
    simp [change, claimed] at idle

theorem owed_change (draining : queue.isDraining = workplace.site.queue.isDraining) :
    (workplace.change (queue.claim.1, { site with queue := queue.claim.2 })).owed =
      workplace.drainer.updates ++ queue.pending.flatMap WorkItem.updates := by
  rcases claim_cases queue with ⟨stays, same⟩ | ⟨drains, free, claimed⟩
  · simp [owed, change, same, stays]
  · have absent := manned (draining.symm.trans free)
    simp [owed, change, claimed, drains, absent, Drainer.updates]

/-- Whoever becomes the drainer is the only one. -/
theorem absent_of_claim (draining : queue.isDraining = workplace.site.queue.isDraining)
    (drains : queue.claim.1 = true) : workplace.drainer = .absent := by
  rcases claim_cases queue with ⟨stays, -⟩ | ⟨-, free, -⟩
  · exact absurd (stays.symm.trans drains) Bool.false_ne_true
  · exact manned (draining.symm.trans free)

theorem absent_of_offer (item : WorkItem κ) (drains : (workplace.site.enqueue item).1 = true) :
    workplace.drainer = .absent :=
  absent_of_claim manned (workplace.site.queue.extend item) rfl drains

theorem absent_of_start (root : Node) (drains : (workplace.site.start root).1 = true) :
    workplace.drainer = .absent :=
  absent_of_claim manned { workplace.site.queue with isStarted := true } rfl drains

theorem absent_of_register (name : String) (scope : Accessor) (priority : Int) (payload : κ)
    (drains : (workplace.site.register name scope priority payload).1 = true) :
    workplace.drainer = .absent := by
  obtain ⟨hooks, hook, same, -⟩ := workplace.register_eq name scope priority payload
  rw [same] at drains
  have manned : (workplace.withHooks hooks).Manned := manned
  exact absent_of_offer manned (.introduce hook) drains

end Claim

section Attended

variable {workplace : Workplace κ} (attended : workplace.Attended)

include attended

theorem attended_change (site : Site κ) (queue : WorkQueue (WorkItem κ))
    (draining : queue.isDraining = workplace.site.queue.isDraining) :
    (workplace.change (queue.claim.1, { site with queue := queue.claim.2 })).Attended := by
  intro absent
  unfold WorkQueue.claim at absent ⊢
  split at absent
  · cases absent
  · rename_i idle
    rw [if_neg idle]
    have free : queue.isDraining = false := draining.trans (attended absent).1
    refine ⟨free, fun started => ?_⟩
    change queue.isStarted = true at started
    change queue.pending = []
    simpa [started, free] using idle

theorem attended_offer (item : WorkItem κ) : (workplace.offer item).Attended :=
  attended_change attended workplace.site (workplace.site.queue.extend item) rfl

theorem attended_receive (record : LogRecord) : (workplace.receive record).Attended := by
  unfold receive
  cases record.body with
  | update update => exact attended_offer attended (.apply update)
  | barrier => exact attended

theorem attended_start (root : Node) : (workplace.change (workplace.site.start root)).Attended :=
  attended_change attended { workplace.site with root := root }
    { workplace.site.queue with isStarted := true } rfl

theorem attended_register (name : String) (scope : Accessor) (priority : Int) (payload : κ) :
    (workplace.change (workplace.site.register name scope priority payload)).Attended := by
  obtain ⟨hooks, hook, -, same⟩ := workplace.register_eq name scope priority payload
  rw [same]
  have attended : (workplace.withHooks hooks).Attended := attended
  exact attended_offer attended (.introduce hook)

end Attended

section Asleep

variable {workplace : Workplace κ} (asleep : workplace.Asleep)

include asleep

/-- Before the queue is started work only gathers. -/
theorem asleep_change (site : Site κ) (queue : WorkQueue (WorkItem κ))
    (started : queue.isStarted = false) :
    (workplace.change (queue.claim.1, { site with queue := queue.claim.2 })).Asleep := by
  have stays : queue.claim = (false, queue) := by
    unfold WorkQueue.claim
    rw [started]
    rfl
  rw [stays]
  exact ⟨started, asleep.2⟩

theorem asleep_offer (item : WorkItem κ) : (workplace.offer item).Asleep :=
  asleep_change asleep workplace.site (workplace.site.queue.extend item) asleep.1

theorem asleep_register (name : String) (scope : Accessor) (priority : Int) (payload : κ) :
    (workplace.change (workplace.site.register name scope priority payload)).Asleep := by
  obtain ⟨hooks, hook, -, same⟩ := workplace.register_eq name scope priority payload
  rw [same]
  have asleep : (workplace.withHooks hooks).Asleep := asleep
  exact asleep_offer asleep (.introduce hook)

theorem step_of_asleep : workplace.step = workplace := by
  unfold step
  rw [asleep.2]

end Asleep

section Changes

variable {workplace : Workplace κ} (manned : workplace.Manned)

include manned

/-- An item that is added comes last. -/
theorem offer_spec (item : WorkItem κ) :
    (workplace.offer item).Manned ∧
      (workplace.offer item).owed = workplace.owed ++ item.updates := by
  have added := owed_change manned workplace.site (workplace.site.queue.extend item) rfl
  constructor
  · exact manned_change manned workplace.site (workplace.site.queue.extend item) rfl
  · apply added.trans
    simp [owed, WorkQueue.extend]

theorem start_spec (root : Node) :
    (workplace.change (workplace.site.start root)).Manned ∧
      (workplace.change (workplace.site.start root)).owed = workplace.owed :=
  ⟨manned_change manned { workplace.site with root := root }
      { workplace.site.queue with isStarted := true } rfl,
    owed_change manned { workplace.site with root := root }
      { workplace.site.queue with isStarted := true } rfl⟩

/-- A new hook adds no update. -/
theorem register_spec (name : String) (scope : Accessor) (priority : Int) (payload : κ) :
    (workplace.change (workplace.site.register name scope priority payload)).Manned ∧
      (workplace.change (workplace.site.register name scope priority payload)).owed =
        workplace.owed := by
  obtain ⟨hooks, hook, -, same⟩ := workplace.register_eq name scope priority payload
  rw [same]
  have manned : (workplace.withHooks hooks).Manned := manned
  obtain ⟨kept, added⟩ := offer_spec manned (.introduce hook)
  exact ⟨kept, added.trans (List.append_nil _)⟩

end Changes

/-! ### The drainer -/

theorem process_spec (site : Site κ) (item : WorkItem κ) :
    (site.process item).1.root = item.updates.foldl (Update.foldInto site.schema) site.root ∧
      (site.process item).1.schema = site.schema ∧ (site.process item).1.queue = site.queue := by
  cases item with
  | introduce hook => exact ⟨rfl, rfl, rfl⟩
  | apply update =>
      simp only [Site.process, Site.commit, WorkItem.updates, List.foldl_cons, List.foldl_nil,
        Update.foldInto]
      split <;> simp_all

/-- The one who asks for an item takes the first that waits, or is gone if none does. -/
theorem owed_hold (site : Site κ) (queue : WorkQueue (WorkItem κ)) :
    (hold (queue.take.1, { site with queue := queue.take.2 })).owed =
      queue.pending.flatMap WorkItem.updates := by
  unfold WorkQueue.take
  cases queue.pending with
  | nil => rfl
  | cons item rest => rfl

theorem manned_hold (site : Site κ) {queue : WorkQueue (WorkItem κ)}
    (draining : queue.isDraining = true) :
    (hold (queue.take.1, { site with queue := queue.take.2 })).Manned := by
  intro idle
  unfold WorkQueue.take at idle ⊢
  cases waiting : queue.pending with
  | nil => rfl
  | cons item rest =>
      rw [waiting] at idle
      exact absurd (draining.symm.trans idle) Bool.noConfusion

theorem manned_step {workplace : Workplace κ} (manned : workplace.Manned) :
    workplace.step.Manned := by
  obtain ⟨site, drainer⟩ := workplace
  have draining (there : drainer ≠ .absent) : site.queue.isDraining = true := by
    cases idle : site.queue.isDraining with
    | true => rfl
    | false => exact absurd (manned idle) there
  cases drainer with
  | absent => exact manned
  | arriving => exact manned_hold site (draining nofun)
  | finished =>
      have same : ({ site.queue with completed := site.queue.completed + 1 } :
          WorkQueue (WorkItem κ)).isDraining = true := draining nofun
      exact manned_hold site same
  | holding item =>
      intro idle
      rw [step, (process_spec site item).2.2, draining nofun] at idle
      cases idle

/-- Whoever finds no item leaves an empty queue. -/
theorem attended_hold (site : Site κ) (queue : WorkQueue (WorkItem κ)) :
    (hold (queue.take.1, { site with queue := queue.take.2 })).Attended := by
  unfold WorkQueue.take
  cases queue.pending with
  | nil => exact fun _ => ⟨rfl, fun _ => rfl⟩
  | cons item rest => exact nofun

theorem attended_step {workplace : Workplace κ} (attended : workplace.Attended) :
    workplace.step.Attended := by
  obtain ⟨site, drainer⟩ := workplace
  cases drainer with
  | absent => exact attended
  | arriving => exact attended_hold site site.queue
  | holding item => exact nofun
  | finished =>
      exact attended_hold site { site.queue with completed := site.queue.completed + 1 }

/-- What the drainer holds is the first that is owed, and after the next step it is owed no
longer. -/
theorem owed_step (workplace : Workplace κ) :
    workplace.owed = workplace.drainer.updates ++ workplace.step.owed := by
  obtain ⟨site, drainer⟩ := workplace
  cases drainer with
  | absent => rfl
  | arriving => exact (owed_hold site site.queue).symm
  | finished =>
      exact (owed_hold site
        { site.queue with completed := site.queue.completed + 1 }).symm
  | holding item =>
      simp [step, owed, Drainer.updates, (process_spec site item).2.2]

/-- A step applies what the drainer holds. -/
theorem root_step (workplace : Workplace κ) :
    workplace.step.site.schema = workplace.site.schema ∧
      workplace.step.site.root =
        workplace.drainer.updates.foldl (Update.foldInto workplace.site.schema)
          workplace.site.root := by
  obtain ⟨site, drainer⟩ := workplace
  cases drainer with
  | holding item =>
      obtain ⟨root, schema, -⟩ := process_spec site item
      exact ⟨schema, root⟩
  | _ => exact ⟨rfl, rfl⟩

/-! ### What waits -/

/-- The updates that are owed are those of the items that wait. -/
theorem owed_eq (workplace : Workplace κ) :
    workplace.owed = workplace.waiting.flatMap WorkItem.updates := by
  obtain ⟨site, drainer⟩ := workplace
  cases drainer <;> simp [owed, waiting, Drainer.updates, Drainer.items]

section Claim

variable {workplace : Workplace κ} (manned : workplace.Manned) (site : Site κ)
  (queue : WorkQueue (WorkItem κ))
  (draining : queue.isDraining = workplace.site.queue.isDraining)

include manned draining

/-- What waits is what waited for the drainer before and what is in the queue. -/
theorem waiting_change :
    (workplace.change (queue.claim.1, { site with queue := queue.claim.2 })).waiting =
      workplace.drainer.items ++ queue.pending := by
  rcases claim_cases queue with ⟨stays, same⟩ | ⟨drains, free, claimed⟩
  · simp [waiting, change, same, stays]
  · have absent := manned (draining.symm.trans free)
    simp [waiting, change, claimed, drains, absent, Drainer.items]

theorem isFinished_change :
    (workplace.change (queue.claim.1, { site with queue := queue.claim.2 })).drainer.isFinished =
      workplace.drainer.isFinished := by
  rcases claim_cases queue with ⟨stays, -⟩ | ⟨drains, free, -⟩
  · simp [change, stays]
  · have absent := manned (draining.symm.trans free)
    simp [change, drains, absent, Drainer.isFinished]

end Claim

/-- An item that is added waits behind the others. -/
theorem waiting_offer {workplace : Workplace κ} (manned : workplace.Manned) (item : WorkItem κ) :
    (workplace.offer item).waiting = workplace.waiting ++ [item] ∧
      (workplace.offer item).drainer.isFinished = workplace.drainer.isFinished := by
  constructor
  · apply (waiting_change manned workplace.site (workplace.site.queue.extend item) rfl).trans
    simp [waiting, WorkQueue.extend]
  · exact isFinished_change manned workplace.site (workplace.site.queue.extend item) rfl

/-- An item that is added leaves the site as it was, but for the queue. -/
theorem site_offer (workplace : Workplace κ) (item : WorkItem κ) :
    (workplace.offer item).site.schema = workplace.site.schema ∧
      (workplace.offer item).site.root = workplace.site.root ∧
      (workplace.offer item).site.hooks = workplace.site.hooks ∧
      (workplace.offer item).site.queue.isStarted = workplace.site.queue.isStarted := by
  refine ⟨rfl, rfl, rfl, ?_⟩
  change (WorkQueue.claim _).2.isStarted = _
  unfold WorkQueue.claim
  split <;> rfl

/-- Whoever asks for an item takes the first that waits. -/
theorem waiting_hold (site : Site κ) (queue : WorkQueue (WorkItem κ)) :
    (hold (queue.take.1, { site with queue := queue.take.2 })).waiting = queue.pending ∧
      (hold (queue.take.1, { site with queue := queue.take.2 })).drainer.isFinished = false := by
  unfold WorkQueue.take
  cases queue.pending with
  | nil => exact ⟨rfl, rfl⟩
  | cons item rest => exact ⟨rfl, rfl⟩

/-- A drainer that holds nothing asks for the next item, if it is there at all. -/
theorem step_of_resting {workplace : Workplace κ} (resting : workplace.drainer.isHolding = false) :
    workplace.step.waiting = workplace.waiting ∧
      workplace.step.drainer.isFinished = false ∧
      workplace.step.site.root = workplace.site.root ∧
      workplace.step.site.schema = workplace.site.schema ∧
      workplace.step.site.hooks = workplace.site.hooks ∧
      workplace.step.site.queue.isStarted = workplace.site.queue.isStarted := by
  obtain ⟨site, drainer⟩ := workplace
  have started (queue : WorkQueue (WorkItem κ)) :
      queue.take.2.isStarted = queue.isStarted := by
    unfold WorkQueue.take
    cases queue.pending <;> rfl
  cases drainer with
  | absent => exact ⟨rfl, rfl, rfl, rfl, rfl, rfl⟩
  | arriving =>
      obtain ⟨waiting, finished⟩ := waiting_hold site site.queue
      exact ⟨waiting, finished, rfl, rfl, rfl, started site.queue⟩
  | holding item => cases resting
  | finished =>
      let queue := { site.queue with completed := site.queue.completed + 1 }
      obtain ⟨waiting, finished⟩ := waiting_hold site queue
      exact ⟨waiting, finished, rfl, rfl, rfl, started queue⟩

/-! ### The end of the queue -/

section End

variable {workplace : Workplace κ}

theorem isIdle_iff : workplace.isIdle = true ↔ workplace.waiting = [] := by
  obtain ⟨site, drainer⟩ := workplace
  cases drainer <;> simp [isIdle, waiting, Drainer.items, Drainer.isHolding]

/-- A step of the drainer brings the root nearer to what it comes to be, and does not change
that. -/
theorem destined_step (workplace : Workplace κ) :
    workplace.step.destined workplace.step.site.root =
      workplace.destined workplace.site.root := by
  obtain ⟨schema, root⟩ := workplace.root_step
  rw [destined, destined, workplace.owed_step, schema, root, List.foldl_append]

/-- Whenever the queue is empty, the root is what it was to be. -/
theorem root_of_isIdle (workplace : Workplace κ) (steps : Nat)
    (idle : (step^[steps] workplace).isIdle = true) :
    (step^[steps] workplace).site.root = workplace.destined workplace.site.root := by
  induction steps generalizing workplace with
  | zero =>
      rw [Function.iterate_zero, id] at idle ⊢
      rw [destined, owed_of_isIdle idle]
      rfl
  | succ steps ih =>
      rw [Function.iterate_succ_apply] at idle ⊢
      rw [ih _ idle, destined_step]

/-- Where something waits and nobody holds it, the drainer takes it next. -/
theorem holding_step {item : WorkItem κ} {rest : List (WorkItem κ)}
    (attended : workplace.Attended) (started : workplace.site.queue.isStarted = true)
    (waits : workplace.waiting = item :: rest) (resting : workplace.drainer.isHolding = false) :
    workplace.step.drainer = .holding item := by
  obtain ⟨site, drainer⟩ := workplace
  have pending : site.queue.pending = item :: rest := by
    cases drainer with
    | holding item => cases resting
    | _ => exact waits
  cases drainer with
  | absent => exact nomatch pending.symm.trans ((attended rfl).2 started)
  | arriving => simp [step, hold, Site.take, WorkQueue.take, pending]
  | holding item => cases resting
  | finished => simp [step, hold, Site.finish, WorkQueue.finish, WorkQueue.take, pending]

end End

end Workplace

end StateTree
