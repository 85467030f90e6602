/-
Module: StateTree.Proofs.Buffering
Purpose: What a buffering stage hands on. Updates are handed on in the order of submission and at
  most once, whatever threads submit and flush and whatever is refused below. What stands behind a
  refused update in its batch is dropped; a later flush returns all the same.
-/
import StateTree.Deployment.Perform
import StateTree.Proofs.Attempts
import Mathlib.Data.List.Induction

namespace StateTree

/-! ### A buffer in use -/

/-- What has come of an update that is neither in the buffer nor in the batch at hand. -/
inductive Fate where
  | accepted
  | refused
  /-- Never handed on. -/
  | dropped
deriving DecidableEq

/-- What the flush of a buffer is at. One that finds another one under way waits until it has
returned. -/
inductive Flush where
  | absent
  /-- With what is left of the batch at hand. -/
  | forwarding (batch : List Update)
  | forwarded (result : Except PipelineError Unit)
  /-- What the buffer hands on to is flushed. -/
  | below

/-- What is left of the batch at hand. -/
def Flush.batch : Flush → List Update
  | .forwarding batch => batch
  | _ => []

/-- What follows a batch: the next one, unless an update was refused. -/
def Flush.afterBatch : Except PipelineError Unit → Flush
  | .ok _ => .forwarding []
  | .error error => .forwarded (.error error)

/-- A buffer in use, with all that was submitted to it and what has come of that so far. -/
structure Holding where
  buffer : Buffer
  flush : Flush
  submitted : List Update
  settled : List (Update × Fate)

/-- One section under the lock of the buffer, or an answer from below. -/
inductive HoldingEvent where
  | submit (update : Update)
  /-- A flush on a thread begins to forward. -/
  | flush (thread : ThreadId)
  /-- The next batch is taken out, if there is any. -/
  | take
  /-- The update that was handed on is accepted or refused. -/
  | answer (result : Except PipelineError Unit)
  /-- The flush has ended forwarding. One that was refused an update returns with that. -/
  | release
  /-- The flush below has returned, and so does this one. -/
  | finish (result : Except PipelineError Unit)

namespace Holding

/-- A buffer that was never used. -/
def fresh : Holding := ⟨.empty, .absent, [], []⟩

/-- The holding after an event, if that can happen. -/
def step (holding : Holding) : HoldingEvent → Option Holding
  | .submit update =>
      some
        { holding with
          buffer := holding.buffer.push update
          submitted := holding.submitted ++ [update] }
  | .flush thread =>
      match holding.flush with
      | .absent =>
          some
            { holding with
              buffer := { holding.buffer with forwarder := some thread }
              flush := .forwarding [] }
      | _ => none
  | .take =>
      match holding.flush with
      | .forwarding [] =>
          let (batch, emptied) := holding.buffer.takeAll
          some
            { holding with
              buffer := emptied
              flush := if batch.isEmpty then .forwarded (.ok ()) else .forwarding batch }
      | _ => none
  | .answer result =>
      match holding.flush, result with
      | .forwarding (update :: rest), .ok () =>
          some
            { holding with
              flush := .forwarding rest
              settled := holding.settled ++ [(update, .accepted)] }
      | .forwarding (update :: rest), .error error =>
          some
            { holding with
              flush := .forwarded (.error error)
              settled :=
                holding.settled ++ (update, .refused) :: rest.map fun late => (late, .dropped) }
      | _, _ => none
  | .release =>
      match holding.flush with
      | .forwarded result =>
          some
            { holding with
              buffer := { holding.buffer with forwarder := none }
              flush := if result.toBool then .below else .absent }
      | _ => none
  | .finish _ =>
      match holding.flush with
      | .below => some { holding with flush := .absent }
      | _ => none

/-- The holding after several events, if they can happen. -/
def run (holding : Holding) (events : List HoldingEvent) : Option Holding :=
  events.foldlM step holding

/-- What was handed on, in that order. -/
def handed (holding : Holding) : List Update :=
  (holding.settled.filter fun entry => entry.2 != .dropped).map Prod.fst

/-- All of these, the first that were submitted, have been handed on. -/
def HasHandedOn (holding : Holding) (updates : List Update) : Prop :=
  ∃ entries, entries <+: holding.settled ∧ entries.map Prod.fst = updates ∧
    ∀ entry ∈ entries, entry.2 ≠ .dropped

/-- In a run of these events each update that was refused was the last of its batch. -/
def Spares (events : List HoldingEvent) : Prop :=
  ∀ front error back, events = front ++ .answer (.error error) :: back →
    ∀ holding, fresh.run front = some holding → holding.flush.batch.length = 1

theorem run_concat (holding : Holding) (events : List HoldingEvent) (event : HoldingEvent) :
    holding.run (events ++ [event]) = (holding.run events).bind (step · event) := by
  simp [run, List.foldlM_append, Option.bind_eq_bind]

theorem run_append (holding : Holding) (events more : List HoldingEvent) :
    holding.run (events ++ more) = (holding.run events).bind (run · more) :=
  List.foldlM_append

theorem run_cons (holding : Holding) (event : HoldingEvent) (events : List HoldingEvent) :
    holding.run (event :: events) = (holding.step event).bind (run · events) := rfl

/-! ### What a step does -/

/-- What an event adds to the updates that are settled. -/
def settles (holding : Holding) : HoldingEvent → List (Update × Fate)
  | .answer (.ok ()) => (holding.flush.batch.take 1).map fun update => (update, .accepted)
  | .answer (.error _) =>
      (holding.flush.batch.take 1).map (fun update => (update, .refused)) ++
        (holding.flush.batch.drop 1).map fun update => (update, .dropped)
  | _ => []

/-- What is submitted is settled in its order, out of the batch at hand and the buffer. -/
def Accounts (holding : Holding) : Prop :=
  holding.submitted =
    holding.settled.map Prod.fst ++ (holding.flush.batch ++ holding.buffer.updates)

variable {holding later : Holding} {event : HoldingEvent}

theorem step_spec (stepped : holding.step event = some later) :
    later.settled = holding.settled ++ holding.settles event ∧
      holding.submitted <+: later.submitted ∧ (holding.Accounts → later.Accounts) := by
  obtain ⟨buffer, flush, submitted, settled⟩ := holding
  cases event with
  | submit update =>
      cases stepped
      refine ⟨(List.append_nil _).symm, List.prefix_append _ _, fun accounts => ?_⟩
      simp_all [Accounts, Buffer.push]
  | flush thread =>
      cases flush <;> cases stepped
      exact ⟨(List.append_nil _).symm, List.prefix_rfl, fun accounts => accounts⟩
  | take =>
      rcases flush with _ | (_ | ⟨update, rest⟩) | _ | _ <;> cases stepped
      refine ⟨(List.append_nil _).symm, List.prefix_rfl, fun accounts => ?_⟩
      cases waiting : buffer.updates <;> simp_all [Accounts, Flush.batch]
  | answer result =>
      rcases flush with _ | (_ | ⟨update, rest⟩) | _ | _ <;> cases result <;> cases stepped
      · refine ⟨rfl, List.prefix_rfl, fun accounts => ?_⟩
        simp_all [Accounts, Flush.batch, Function.comp_def]
      · refine ⟨rfl, List.prefix_rfl, fun accounts => ?_⟩
        simp_all [Accounts, Flush.batch]
  | release =>
      rcases flush with _ | _ | result | _ <;> cases stepped
      refine ⟨(List.append_nil _).symm, List.prefix_rfl, fun accounts => ?_⟩
      cases result <;> exact accounts
  | finish result =>
      cases flush <;> cases stepped
      exact ⟨(List.append_nil _).symm, List.prefix_rfl, fun accounts => accounts⟩

theorem accounts_run {events : List HoldingEvent} {now : Holding}
    (ran : fresh.run events = some now) : now.Accounts := by
  induction events using List.reverseRecOn generalizing now with
  | nil =>
      cases ran
      rfl
  | append_singleton events event ih =>
      rw [run_concat, Option.bind_eq_some_iff] at ran
      obtain ⟨before, earlier, stepped⟩ := ran
      exact (step_spec stepped).2.2 (ih earlier)

/-- What was handed on was submitted in that order, and is not handed on again. -/
theorem handed_sublist {events : List HoldingEvent} {now : Holding}
    (ran : fresh.run events = some now) : now.handed.Sublist now.submitted := by
  have settled : now.handed.Sublist (now.settled.map Prod.fst) := List.filter_sublist.map Prod.fst
  rw [accounts_run ran]
  exact settled.trans (List.sublist_append_left _ _)

theorem spares_concat {events : List HoldingEvent} (ran : fresh.run events = some holding) :
    Spares (events ++ [event]) ↔ Spares events ∧
      ∀ error, event = .answer (.error error) → holding.flush.batch.length = 1 := by
  constructor
  · intro spares
    refine ⟨fun front error back whole => spares front error (back ++ [event]) ?_, ?_⟩
    · rw [whole, List.append_assoc]
      rfl
    · rintro error rfl
      exact spares events error [] rfl holding ran
  · rintro ⟨spares, last⟩ front error back whole
    rcases List.eq_nil_or_concat back with rfl | ⟨earlier, final, rfl⟩
    · obtain ⟨rfl, same⟩ := List.append_inj' whole rfl
      intro there reached
      cases reached.symm.trans ran
      exact last error (List.cons.inj same).1
    · have split : events ++ [event] = (front ++ .answer (.error error) :: earlier) ++ [final] := by
        rw [whole, List.concat_eq_append, List.append_assoc]
        rfl
      exact spares front error earlier (List.append_inj' split rfl).1

/-- Nothing is dropped as long as each refused update is the last of its batch. -/
theorem spares_iff {events : List HoldingEvent} {now : Holding}
    (ran : fresh.run events = some now) :
    Spares events ↔ ∀ entry ∈ now.settled, entry.2 ≠ .dropped := by
  induction events using List.reverseRecOn generalizing now with
  | nil =>
      cases ran
      exact ⟨fun _ _ => nofun, fun _ front _ _ whole => absurd whole.symm (by simp)⟩
  | append_singleton events event ih =>
      rw [run_concat, Option.bind_eq_some_iff] at ran
      obtain ⟨before, earlier, stepped⟩ := ran
      rw [spares_concat earlier, (step_spec stepped).1, List.forall_mem_append, ih earlier]
      refine and_congr_right fun _ => ?_
      cases event with
      | answer result =>
          obtain ⟨buffer, flush, submitted, settled⟩ := before
          rcases flush with _ | (_ | ⟨update, rest⟩) | _ | _ <;> cases result <;> cases stepped
          · simp [settles, Flush.batch, List.eq_nil_iff_forall_not_mem]
          · simp [settles, Flush.batch]
      | _ => simp [settles]

/-! ### A flush that returns -/

/-- Since a flush began at `start` nothing has been dropped. -/
def Forwards (start now : Holding) : Prop :=
  ∃ new, now.settled = start.settled ++ new ∧ ∀ entry ∈ new, entry.2 ≠ .dropped

/-- What is so while a flush that began at `start` is under way, and after that until another one
begins. -/
def Underway (start now : Holding) : Prop :=
  match now.flush with
  | .absent | .forwarded (.error _) => True
  | .forwarding _ => start.Forwards now
  | .forwarded (.ok _) | .below =>
      start.Forwards now ∧ start.submitted <+: now.settled.map Prod.fst

/-- A flush that is not refused an update goes on until the buffer is empty. -/
theorem underway_step {start : Holding} (accounts : holding.Accounts)
    (submitted : start.submitted <+: holding.submitted) (underway : start.Underway holding)
    (same : ∀ thread, event ≠ .flush thread) (stepped : holding.step event = some later) :
    start.Underway later := by
  obtain ⟨buffer, flush, list, settled⟩ := holding
  cases event with
  | submit update =>
      cases stepped
      exact underway
  | flush thread => exact absurd rfl (same thread)
  | take =>
      rcases flush with _ | (_ | ⟨update, rest⟩) | _ | _ <;> cases stepped
      cases waiting : buffer.updates with
      | nil =>
          -- Nothing is left in the buffer or in a batch: all that was submitted is settled.
          have all : list = settled.map Prod.fst ++ ([] ++ buffer.updates) := accounts
          rw [waiting, List.append_nil, List.append_nil] at all
          have done : start.Underway ⟨buffer.takeAll.2, .forwarded (.ok ()), list, settled⟩ :=
            ⟨underway, all ▸ submitted⟩
          simpa [Buffer.takeAll, waiting] using done
      | cons update rest =>
          have goes : start.Underway
              ⟨buffer.takeAll.2, .forwarding (update :: rest), list, settled⟩ := underway
          simpa [Buffer.takeAll, waiting] using goes
  | answer result =>
      rcases flush with _ | (_ | ⟨update, rest⟩) | _ | _ <;> cases result <;> cases stepped
      · trivial
      · obtain ⟨new, rfl, kept⟩ := underway
        refine ⟨new ++ [(update, .accepted)], List.append_assoc _ _ _, ?_⟩
        exact List.forall_mem_append.mpr ⟨kept, List.forall_mem_singleton.mpr Fate.noConfusion⟩
  | release =>
      rcases flush with _ | _ | (_ | _) | _ <;> cases stepped
      · trivial
      · exact underway
  | finish result =>
      cases flush <;> cases stepped
      trivial

theorem underway_run {start : Holding} {events : List HoldingEvent} {now : Holding}
    (accounts : holding.Accounts) (submitted : start.submitted <+: holding.submitted)
    (underway : start.Underway holding)
    (same : ∀ event ∈ events, ∀ thread, event ≠ .flush thread)
    (ran : holding.run events = some now) : start.Underway now := by
  induction events generalizing holding with
  | nil =>
      cases ran
      exact underway
  | cons event rest ih =>
      rw [run_cons, Option.bind_eq_some_iff] at ran
      obtain ⟨next, stepped, ran⟩ := ran
      obtain ⟨here, later⟩ := List.forall_mem_cons.mp same
      obtain ⟨-, more, kept⟩ := step_spec stepped
      exact ih (kept accounts) (submitted.trans more)
        (underway_step accounts submitted underway here stepped) later ran

/-- When a flush returns, all that was submitted before it has been settled, and nothing of it has
been dropped since the flush began. -/
theorem forwards_of_returned {start now : Holding} {thread : ThreadId}
    {during : List HoldingEvent} {result : Except PipelineError Unit} (accounts : start.Accounts)
    (same : ∀ event ∈ during, ∀ thread, event ≠ .flush thread)
    (ran : start.run (.flush thread :: during ++ [.finish result]) = some now) :
    start.Forwards now ∧ start.submitted <+: now.settled.map Prod.fst := by
  rw [run_concat, Option.bind_eq_some_iff] at ran
  obtain ⟨last, ran, finished⟩ := ran
  rw [run_cons, Option.bind_eq_some_iff] at ran
  obtain ⟨first, began, ran⟩ := ran
  obtain ⟨-, submitted, kept⟩ := step_spec began
  have begins : start.Underway first := by
    obtain ⟨buffer, flush, list, settled⟩ := start
    cases flush <;> cases began
    exact ⟨[], (List.append_nil _).symm, nofun⟩
  have underway := underway_run (kept accounts) submitted begins same ran
  obtain ⟨buffer, flush, list, settled⟩ := last
  cases flush <;> cases finished
  exact underway

/-- Let updates be submitted and the buffer be flushed by any threads, with any answers from below.
What has been handed on was submitted in that order, and nothing is handed on twice. When a flush
returns, all that was submitted before it has been handed on exactly if each update that had been
refused was the last of its batch. -/
theorem returned_iff {events : List HoldingEvent} {now : Holding}
    (ran : fresh.run events = some now) :
    now.handed.Sublist now.submitted ∧
      ∀ before thread during start,
        events = before ++ (.flush thread :: during ++ [.finish (.ok ())]) →
          (∀ event ∈ during, ∀ thread, event ≠ .flush thread) → fresh.run before = some start →
            (now.HasHandedOn start.submitted ↔ Spares before) := by
  refine ⟨handed_sublist ran, ?_⟩
  rintro before thread during start rfl same began
  rw [run_append, began] at ran
  have accounts := accounts_run began
  obtain ⟨⟨new, whole, kept⟩, reached⟩ := forwards_of_returned accounts same ran
  rw [spares_iff began]
  constructor
  · rintro ⟨entries, early, updates, handedOn⟩
    have inside : start.settled <+: entries := by
      refine List.prefix_of_prefix_length_le (whole ▸ List.prefix_append _ _) early ?_
      have length := congrArg List.length updates
      rw [List.length_map, accounts, List.length_append, List.length_map] at length
      omega
    exact fun entry member => handedOn entry (inside.subset member)
  · intro spared
    refine ⟨now.settled.take start.submitted.length, List.take_prefix _ _, ?_, ?_⟩
    · rw [List.map_take]
      exact (List.prefix_iff_eq_take.mp reached).symm
    · intro entry member
      have among := List.mem_of_mem_take member
      rw [whole] at among
      exact (List.mem_append.mp among).elim (spared entry) (kept entry)

end Holding

/-! ### The stage -/

/-- What a buffer hands on to, with a view of what it has been handed. It gets at the buffer only
by submitting to it, as hooks do. -/
structure Downstream (next : Caller) (number : Nat) (down : Pipeline)
    (handed : Deployment → List Update) : Prop where
  apart : ∀ deployment buffers, handed { deployment with buffers := buffers } = handed deployment
  submit : ∀ {update before result after}, (next.submit down update).run before =
    some (result, after) → handed after = handed before ++ [update] ∧
      ∃ updates : List Update, after.buffers[number]? =
        before.buffers[number]?.map fun held => updates.foldl Buffer.push held
  flush : ∀ {before result after}, (next.flush down).run before = some (result, after) →
    handed after = handed before ∧
      ∃ updates : List Update, after.buffers[number]? =
        before.buffers[number]?.map fun held => updates.foldl Buffer.push held

namespace Holding

/-- The holding is that of a buffer of the deployment. -/
structure Reflects (holding : Holding) (number : Nat) (handed : Deployment → List Update)
    (deployment : Deployment) : Prop where
  buffer : deployment.buffers[number]? = some holding.buffer
  handed : handed deployment = holding.handed

/-- The one holding can become the other without another flush. -/
def Leads (holding later : Holding) : Prop :=
  ∃ events, (∀ event ∈ events, ∀ thread, event ≠ .flush thread) ∧ holding.run events = some later

theorem Leads.refl (holding : Holding) : holding.Leads holding := ⟨[], nofun, rfl⟩

theorem Leads.trans {holding middle later : Holding} (first : holding.Leads middle)
    (second : middle.Leads later) : holding.Leads later := by
  obtain ⟨events, same, ran⟩ := first
  obtain ⟨more, same', ran'⟩ := second
  refine ⟨events ++ more, List.forall_mem_append.mpr ⟨same, same'⟩, ?_⟩
  rw [run_append, ran]
  exact ran'

theorem Leads.single {holding later : Holding} (event : HoldingEvent)
    (same : ∀ thread, event ≠ .flush thread) (stepped : holding.step event = some later) :
    holding.Leads later :=
  ⟨[event], List.forall_mem_singleton.mpr same, by rw [run_cons, stepped]; rfl⟩

/-- Updates are submitted one after the other. -/
theorem leads_submit (holding : Holding) (updates : List Update) :
    holding.Leads
      { holding with
        buffer := updates.foldl Buffer.push holding.buffer
        submitted := holding.submitted ++ updates } := by
  induction updates generalizing holding with
  | nil =>
      rw [List.append_nil]
      exact .refl holding
  | cons update rest ih =>
      have first : holding.Leads
          { holding with
            buffer := holding.buffer.push update
            submitted := holding.submitted ++ [update] } := .single (.submit update) nofun rfl
      have onward := first.trans (ih _)
      rwa [List.append_assoc] at onward

namespace Reflects

open Deployment

variable {next : Caller} {number : Nat} {down : Pipeline} {handed : Deployment → List Update}
  {before after : Deployment} {holding : Holding} {result : Except PipelineError Unit}

/-- A batch is handed on up to the first update that is refused. -/
theorem handOn (downstream : Downstream next number down handed) {batch : List Update}
    (ran : (handOn next down batch).run before = some (result, after))
    (reflects : holding.Reflects number handed before)
    (forwarding : holding.flush = .forwarding batch) :
    ∃ later, holding.Leads later ∧ later.Reflects number handed after ∧
      later.flush = .afterBatch result := by
  induction batch generalizing holding before with
  | nil =>
      cases ran
      exact ⟨holding, .refl holding, reflects, forwarding⟩
  | cons update rest ih =>
      change (next.submit down update >>= fun _ => handOn next down rest).run before = _ at ran
      obtain ⟨⟨⟩, middle, accepted, ran⟩ | ⟨error, refused, rfl⟩ := Attempt.bind_cases ran
      · obtain ⟨seen, updates, held⟩ := downstream.submit accepted
        let answered : Holding :=
          ⟨updates.foldl Buffer.push holding.buffer, .forwarding rest,
            holding.submitted ++ updates, holding.settled ++ [(update, .accepted)]⟩
        have first : holding.Leads answered := by
          refine (holding.leads_submit updates).trans (.single (.answer (.ok ())) nofun ?_)
          simp [Holding.step, forwarding, answered]
        have reflects₁ : answered.Reflects number handed middle := by
          refine ⟨by rw [held, reflects.buffer]; rfl, ?_⟩
          rw [seen, reflects.handed]
          simp [Holding.handed, answered]
        obtain ⟨later, leads, reflects', ends⟩ := ih ran reflects₁ rfl
        exact ⟨later, first.trans leads, reflects', ends⟩
      · obtain ⟨seen, updates, held⟩ := downstream.submit refused
        let answered : Holding :=
          ⟨updates.foldl Buffer.push holding.buffer, .forwarded (.error error),
            holding.submitted ++ updates,
            holding.settled ++ (update, .refused) :: rest.map fun late => (late, .dropped)⟩
        have first : holding.Leads answered := by
          refine (holding.leads_submit updates).trans
            (.single (.answer (.error error)) nofun ?_)
          simp [Holding.step, forwarding, answered]
        refine ⟨answered, first, ⟨by rw [held, reflects.buffer]; rfl, ?_⟩, rfl⟩
        rw [seen, reflects.handed]
        simp [Holding.handed, answered]

theorem put (downstream : Downstream next number down handed)
    (reflects : holding.Reflects number handed before) {later : Holding}
    (same : later.settled = holding.settled) :
    later.Reflects number handed
      { before with buffers := before.buffers.set number later.buffer } := by
  constructor
  · have inside : number < before.buffers.length :=
      (List.getElem?_eq_some_iff.mp reflects.buffer).1
    exact List.getElem?_set_self inside
  · rw [downstream.apart, reflects.handed, Holding.handed, Holding.handed, same]

/-- Batches are handed on until the buffer stays empty or an update is refused. -/
theorem forward (downstream : Downstream next number down handed) {rounds : Nat}
    (ran : (Deployment.forward next number down rounds).run before = some (result, after))
    (reflects : holding.Reflects number handed before)
    (forwarding : holding.flush = .forwarding []) :
    ∃ later, holding.Leads later ∧ later.Reflects number handed after ∧
      later.flush = .forwarded result := by
  induction rounds generalizing holding before with
  | zero => cases ran
  | succ rounds ih =>
      obtain ⟨held, _, looked, ran⟩ := Attempt.lift_bind_cases ran
      obtain ⟨rfl, found⟩ := buffer_cases looked
      cases found.symm.trans reflects.buffer
      obtain ⟨⟨⟩, _, put, ran⟩ := Attempt.lift_bind_cases ran
      cases put
      let taken (flush : Flush) : Holding :=
        { holding with buffer := holding.buffer.takeAll.2, flush := flush }
      have took : holding.step .take =
          some (taken (if holding.buffer.updates.isEmpty then .forwarded (.ok ())
            else .forwarding holding.buffer.updates)) := by
        simp only [step, forwarding]
        rfl
      have put (flush : Flush) : (taken flush).Reflects number handed _ :=
        reflects.put downstream rfl
      dsimp only [Buffer.takeAll] at ran
      split at ran
      · rename_i none
        cases ran
        rw [if_pos none] at took
        exact ⟨_, .single .take nofun took, put _, rfl⟩
      · rename_i some
        rw [if_neg some] at took
        have first := Leads.single .take nofun took
        obtain ⟨⟨⟩, middle, handedOn, ran⟩ | ⟨error, refused, rfl⟩ := Attempt.bind_cases ran
        · obtain ⟨between, leads, reflects', ends⟩ := handOn downstream handedOn (put _) rfl
          obtain ⟨later, leads', reflects'', ends'⟩ := ih ran reflects' ends
          exact ⟨later, first.trans (leads.trans leads'), reflects'', ends'⟩
        · obtain ⟨later, leads, reflects', ends⟩ := handOn downstream refused (put _) rfl
          exact ⟨later, first.trans leads, reflects', ends⟩

theorem putForwarder (downstream : Downstream next number down handed) {forwarder : Option ThreadId}
    (ran : Deployment.putForwarder number forwarder before = some ((), after))
    (reflects : holding.Reflects number handed before) {flush : Flush} :
    Reflects
      { holding with
        buffer := { holding.buffer with forwarder := forwarder }
        flush := flush } number handed after := by
  obtain ⟨held, _, looked, ran⟩ := Run.bind_cases ran
  obtain ⟨rfl, found⟩ := buffer_cases looked
  cases found.symm.trans reflects.buffer
  cases ran
  exact reflects.put downstream rfl

end Reflects

/-- No flush is under way. -/
structure Rests (holding : Holding) : Prop where
  absent : holding.flush = .absent
  free : holding.buffer.forwarder = none

theorem forwarder_foldl_push (buffer : Buffer) (updates : List Update) :
    (updates.foldl Buffer.push buffer).forwarder = buffer.forwarder := by
  induction updates generalizing buffer with
  | nil => rfl
  | cons update rest ih => exact ih (buffer.push update)

namespace Reflects

open Deployment

variable {next : Caller} {number : Nat} {down : Pipeline} {handed : Deployment → List Update}
  {before after : Deployment} {holding : Holding} {result : Except PipelineError Unit}

theorem bufferUpdate (downstream : Downstream next number down handed) {update : Update}
    (ran : (Deployment.bufferUpdate number update).run before = some (result, after))
    (reflects : holding.Reflects number handed before) (rests : holding.Rests) :
    ∃ later, holding.step (.submit update) = some later ∧ later.Reflects number handed after ∧
      later.Rests := by
  obtain ⟨held, _, looked, ran⟩ := Attempt.lift_bind_cases ran
  obtain ⟨rfl, found⟩ := buffer_cases looked
  cases found.symm.trans reflects.buffer
  cases ran
  exact ⟨_, rfl, reflects.put downstream rfl, rests.absent, rests.free⟩

/-- A flush is one of the buffer, from its beginning until it returns. -/
theorem flushBuffer (downstream : Downstream next number down handed)
    (ran : (Deployment.flushBuffer next number down).run before = some (result, after))
    (reflects : holding.Reflects number handed before) (rests : holding.Rests) :
    ∃ during last later, (∀ event ∈ during, ∀ thread, event ≠ .flush thread) ∧
      holding.run (.flush before.thread.id :: during ++ [last]) = some later ∧
        (result = .ok () → last = .finish (.ok ())) ∧ later.Reflects number handed after ∧
          later.Rests := by
  obtain ⟨held, _, looked, ran⟩ := Attempt.lift_bind_cases ran
  obtain ⟨rfl, found⟩ := buffer_cases looked
  cases found.symm.trans reflects.buffer
  obtain ⟨deployment, _, got, ran⟩ := Attempt.lift_bind_cases ran
  cases got
  dsimp only at ran
  rw [if_neg (by rw [rests.free]; nofun)] at ran
  obtain ⟨⟨⟩, begun, put, ran⟩ := Attempt.lift_bind_cases ran
  obtain ⟨forwarded, ended, forward, ran⟩ := Attempt.outcome_bind_cases ran
  obtain ⟨⟨⟩, released, put', ran⟩ := Attempt.lift_bind_cases ran
  have begins : holding.step (.flush before.thread.id) =
      some
        { holding with
          buffer := { holding.buffer with forwarder := some before.thread.id }
          flush := .forwarding [] } := by
    simp only [step, rests.absent]
  obtain ⟨middle, ⟨during, same, led⟩, reflects', ends⟩ :=
    Reflects.forward downstream forward (putForwarder downstream put reflects) rfl
  have releases : middle.step .release =
      some
        { middle with
          buffer := { middle.buffer with forwarder := none }
          flush := if forwarded.toBool then .below else .absent } := by
    simp only [step, ends]
  have reflects'' (flush : Flush) : Reflects
      { middle with
        buffer := { middle.buffer with forwarder := none }
        flush := flush } number handed released := putForwarder downstream put' reflects'
  cases forwarded with
  | error error =>
      cases ran
      refine ⟨during, .release, _, same, ?_, nofun, reflects'' .absent, rfl, rfl⟩
      rw [run_concat, run_cons, begins, Option.bind_some, led]
      exact releases
  | ok value =>
      obtain ⟨seen, updates, held⟩ := downstream.flush ran
      obtain ⟨more, same', led'⟩ := leads_submit
        { middle with
          buffer := { middle.buffer with forwarder := none }
          flush := .below } updates
      refine ⟨during ++ .release :: more, .finish result,
        ⟨updates.foldl Buffer.push { middle.buffer with forwarder := none }, .absent,
          middle.submitted ++ updates, middle.settled⟩, ?_, ?_, ?_, ⟨?_, ?_⟩, rfl,
        forwarder_foldl_push _ _⟩
      · exact List.forall_mem_append.mpr ⟨same, List.forall_mem_cons.mpr ⟨nofun, same'⟩⟩
      · rw [run_concat, run_cons, begins, Option.bind_some, run_append, led, Option.bind_some,
          run_cons, releases, Option.bind_some]
        exact (congrArg (Option.bind · _) led').trans rfl
      · rintro rfl
        rfl
      · rw [held, (reflects'' .below).buffer]
        rfl
      · exact seen.trans (reflects'' .below).handed

end Reflects

theorem submitted_run {holding now : Holding} {events : List HoldingEvent}
    (ran : holding.run events = some now) : holding.submitted <+: now.submitted := by
  induction events generalizing holding with
  | nil =>
      cases ran
      exact List.prefix_rfl
  | cons event rest ih =>
      rw [run_cons, Option.bind_eq_some_iff] at ran
      obtain ⟨next, stepped, ran⟩ := ran
      exact (step_spec stepped).2.1.trans (ih ran)

end Holding

/-- A call of a buffering stage. -/
inductive BufferCall where
  | submit (update : Update)
  | flush

namespace BufferCall

/-- The stage answers a call. -/
def perform (next : Caller) (number : Nat) (down : Pipeline) : BufferCall → Attempt Unit
  | .submit update => Deployment.submit next (.buffer number down) update
  | .flush => Deployment.flush next (.buffer number down)

/-- The stage answers calls one after the other. -/
def performAll (next : Caller) (number : Nat) (down : Pipeline) :
    List BufferCall → Run (List (Except PipelineError Unit))
  | [] => pure []
  | call :: rest => do
      let answer ← (call.perform next number down).run
      let answers ← performAll next number down rest
      pure (answer :: answers)

def submitted : BufferCall → List Update
  | .submit update => [update]
  | .flush => []

end BufferCall

section Calls

variable {next : Caller} {number : Nat} {down : Pipeline} {handed : Deployment → List Update}
  {calls : List BufferCall} {before after : Deployment}
  {answers : List (Except PipelineError Unit)} {holding : Holding}

/-- Calls one after the other are a run of the buffer. -/
theorem Holding.Reflects.performAll (downstream : Downstream next number down handed)
    (ran : BufferCall.performAll next number down calls before = some (answers, after))
    (reflects : holding.Reflects number handed before) (rests : holding.Rests) :
    ∃ events later, holding.run events = some later ∧
      (holding.submitted ++ calls.flatMap BufferCall.submitted).Sublist later.submitted ∧
        later.Reflects number handed after ∧ later.Rests := by
  induction calls generalizing holding before answers with
  | nil =>
      cases ran
      exact ⟨[], holding, rfl, by simp, reflects, rests⟩
  | cons call rest ih =>
      obtain ⟨answer, middle, first, onward⟩ := Run.bind_cases ran
      obtain ⟨others, _, onward, same⟩ := Run.bind_cases onward
      cases same
      cases call with
      | submit update =>
          obtain ⟨between, stepped, reflects', rests'⟩ :=
            Reflects.bufferUpdate downstream first reflects rests
          obtain ⟨events, later, onward, all, ends⟩ := ih onward reflects' rests'
          refine ⟨.submit update :: events, later, ?_, ?_, ends⟩
          · rw [run_cons, stepped]
            exact onward
          · cases stepped
            rwa [List.append_assoc] at all
      | flush =>
          obtain ⟨during, last, between, -, flushed, -, reflects', rests'⟩ :=
            Reflects.flushBuffer downstream first reflects rests
          obtain ⟨events, later, onward, all, ends⟩ := ih onward reflects' rests'
          refine ⟨.flush before.thread.id :: during ++ [last] ++ events, later, ?_, ?_, ends⟩
          · rw [run_append, flushed]
            exact onward
          · exact ((submitted_run flushed).sublist.append_right _).trans all

/-- Let a buffer be given any calls, whatever it hands on to. What has been handed on was submitted
in that order, and nothing was handed on twice. When a flush after those calls returns, all that was
submitted before has been handed on exactly if each update that had been refused was the last of its
batch. -/
theorem Deployment.handed_on_iff (downstream : Downstream next number down handed)
    (unused : before.buffers[number]? = some .empty) (nothing : handed before = [])
    (ran : BufferCall.performAll next number down calls before = some (answers, after)) :
    ∃ events start, Holding.fresh.run events = some start ∧
      (calls.flatMap BufferCall.submitted).Sublist start.submitted ∧
        start.Reflects number handed after ∧ (handed after).Sublist start.submitted ∧
          ∀ last, (BufferCall.flush.perform next number down).run after = some (.ok (), last) →
            ∃ now : Holding, now.Reflects number handed last ∧ (handed last).Sublist now.submitted ∧
              start.submitted <+: now.submitted ∧
                (now.HasHandedOn start.submitted ↔ Holding.Spares events) := by
  have reflects : Holding.fresh.Reflects number handed before := ⟨unused, nothing⟩
  obtain ⟨events, start, began, all, reflects, rests⟩ :=
    reflects.performAll downstream ran ⟨rfl, rfl⟩
  refine ⟨events, start, began, all, reflects, ?_, ?_⟩
  · rw [reflects.handed]
    exact Holding.handed_sublist began
  · intro last returned
    obtain ⟨during, event, now, same, flushed, ends, reflects', -⟩ :=
      Holding.Reflects.flushBuffer downstream returned reflects rests
    cases ends rfl
    have whole : Holding.fresh.run
        (events ++ (.flush after.thread.id :: during ++ [.finish (.ok ())])) = some now := by
      rw [Holding.run_append, began]
      exact flushed
    obtain ⟨inOrder, iff⟩ := Holding.returned_iff whole
    refine ⟨now, reflects', ?_, Holding.submitted_run flushed, iff _ _ _ _ rfl same began⟩
    rw [reflects'.handed]
    exact inOrder

end Calls

/-! ### In the sample -/

namespace Sample

/-- Keeps what it is handed. -/
def tape : Recorder := ⟨"tape", none, false, false⟩

/-- Keeps an update and refuses it then. -/
def refusing : Pipeline := .broadcast [.recorder tape, .readOnly (.recorder tape)]

/-- The updates on the tape. -/
def taped (deployment : Deployment) : List Update :=
  deployment.recorded.reverse.filterMap fun
    | (_, .submit update) => some update
    | _ => none

/-- A deployment of a buffer. -/
def buffered : Deployment := { Deployment.empty with buffers := [.empty] }

def first : Update := ⟨.replacement ⟨[.name "title"]⟩ (.str "first"), .empty⟩

def second : Update := ⟨.replacement ⟨[.name "title"]⟩ (.str "second"), .empty⟩

theorem downstream_refusing : Downstream Deployment.caller 0 refusing taped where
  apart _ _ := rfl
  submit {update before result after} ran := by
    cases ran
    exact ⟨by simp [taped], [], by simp⟩
  flush ran := by
    cases ran
    exact ⟨by simp [taped], [], by simp⟩

/-- A flush that is refused an update with another one behind it. -/
def refused : List BufferCall := [.submit first, .submit second, .flush]

theorem refused_handed_on_iff :
    buffered.buffers[0]? = some .empty ∧ taped buffered = [] ∧
      ∃ answers after,
        BufferCall.performAll Deployment.caller 0 refusing refused buffered =
          some (answers, after) ∧
          ∃ events start, Holding.fresh.run events = some start ∧
            start.Reflects 0 taped after ∧ (taped after).Sublist start.submitted ∧
              ∀ last, (BufferCall.flush.perform Deployment.caller 0 refusing).run after =
                  some (.ok (), last) →
                ∃ now : Holding, now.Reflects 0 taped last ∧
                  (now.HasHandedOn start.submitted ↔ Holding.Spares events) := by
  have ends : (BufferCall.performAll Deployment.caller 0 refusing refused buffered).isSome := by
    decide +kernel
  obtain ⟨⟨answers, after⟩, ran⟩ := Option.isSome_iff_exists.mp ends
  obtain ⟨events, start, began, -, reflects, inOrder, flushed⟩ :=
    Deployment.handed_on_iff downstream_refusing rfl rfl ran
  refine ⟨rfl, rfl, answers, after, ran, events, start, began, reflects, inOrder, ?_⟩
  intro last returned
  obtain ⟨now, reflects', -, -, iff⟩ := flushed last returned
  exact ⟨now, reflects', iff⟩

/-- The flush after that returns, and the second update is never handed on. -/
theorem second_not_handed_on :
    (BufferCall.performAll Deployment.caller 0 refusing (refused ++ [.flush]) buffered).map
        (fun (answers, after) =>
          (answers.map Except.toBool, taped after, decide (second ∈ taped after))) =
      some ([true, true, false, true], [first], false) := by
  decide +kernel

end Sample

end StateTree
