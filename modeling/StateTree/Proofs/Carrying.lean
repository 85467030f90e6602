/-
Module: StateTree.Proofs.Carrying
Purpose: What calls do to a line of stages in a deployment. Each call of a pipeline, and each turn
  of the thread of a worker, is a run of the line: a batch is handed on update by update, a worker
  comes to the mark of a flush behind all it has, and each stage finds those below as they were.
-/
import StateTree.Deployment.Settle
import StateTree.Proofs.Lines

namespace StateTree

/-! ### Calls -/

namespace Caller

/-- Ask a pipeline for something. -/
def ask (next : Caller) (pipeline : Pipeline) : StageCall → Attempt Unit
  | .submit update => next.submit pipeline update
  | .flush => next.flush pipeline

/-- What calls do to a line of a deployment: they do not fail, and leave a line behind that theirs
can become. None of them is made on a thread of the line. -/
structure Carries (next : Caller) : Prop where
  ask : ∀ {line : Conveyor} {pipeline request before result after},
    line.Reflects before pipeline → before.thread.id ∉ pipeline.threads →
      (next.ask pipeline request).run before = some (result, after) →
        result = .ok () ∧ (line.call request).Attains pipeline before after
  root : ∀ {deployment : Deployment} {number standard stages pipeline before result after},
    deployment.Laid number standard stages pipeline →
      (next.initialRoot pipeline).run before = some (result, after) →
        before = after ∧ result.toOption = standard
  drain : ∀ {site : Site Nat} {number standard update updates before after},
    before.site? number = some site → site.Working (update :: updates) →
      next.perform (.drain number) before = some ((), after) →
        (Conveyor.site ⟨site, .arriving⟩).Attains (.site number standard) before after

namespace Carries

open Conveyor

variable {next : Caller} {number : Nat} {standard : Option Node} {down : Pipeline}
  {line : Conveyor} {before after : Deployment} {updates : List Update}
  {result : Except PipelineError Unit}

section Stages

variable (carries : next.Carries)

include carries

/-- An update that reaches a site is applied. -/
theorem offer {site : Site Nat} {update : Update} (there : before.site? number = some site)
    (resting : site.Resting)
    (ran : Deployment.changeSite next number (·.enqueue (.apply update)) before =
      some ((), after)) :
    ((Conveyor.site ⟨site, .absent⟩).call (.submit update)).Attains (.site number standard)
      before after := by
  obtain ⟨drains, working⟩ := Site.Working.of_resting resting update
  obtain ⟨middle, put, ran⟩ := Deployment.changeSite_cases there ran
  obtain ⟨there', spares⟩ := Deployment.putSite_cases there put
  rw [if_pos drains] at ran
  rw [Conveyor.call, Workplace.offer, Workplace.change, if_pos drains]
  obtain ⟨later, leads, reflects, spares'⟩ := carries.drain there' working ran
  exact ⟨later, leads, reflects, spares.trans spares'⟩

omit carries in
theorem putForwarder {current forwarder : Option ThreadId}
    (held : before.buffers[number]? = some ⟨updates, current⟩) (apart : number ∉ down.buffers)
    (reflects : line.Reflects before down)
    (ran : Deployment.putForwarder number forwarder before = some ((), after)) :
    after.buffers[number]? = some ⟨updates, forwarder⟩ ∧ line.Reflects after down ∧
      before.Spares (.buffer number down) after := by
  obtain ⟨held', _, looked, ran⟩ := Run.bind_cases ran
  obtain ⟨rfl, found⟩ := Deployment.buffer_cases looked
  cases found.symm.trans held
  exact reflects.putBuffer held apart ran

/-- A batch is handed on. -/
theorem handOn {batch : List Update} (kept : Buffer) (reflects : line.Reflects before down)
    (foreign : before.thread.id ∉ down.threads)
    (ran : (Deployment.handOn next down batch).run before = some (result, after)) :
    result = .ok () ∧
      ∃ later : Conveyor,
        (Conveyor.buffer kept (some batch) line).Leads (.buffer kept (some []) later) ∧
          later.Reflects after down ∧ before.Spares down after := by
  induction batch generalizing line before with
  | nil =>
      cases ran
      exact ⟨rfl, line, .refl _, reflects, .refl _ down⟩
  | cons update rest ih =>
      change (next.ask down (.submit update) >>= fun _ => Deployment.handOn next down rest).run
        before = _ at ran
      have handed : (Conveyor.buffer kept (some (update :: rest)) line).Leads
          (.buffer kept (some rest) (line.call (.submit update))) := .go reflects.free
      obtain ⟨_, middle, here, ran⟩ | ⟨error, refused, -⟩ := Attempt.bind_cases ran
      · obtain ⟨-, between, leads, reflects', spares⟩ := carries.ask reflects foreign here
        rw [← spares.thread] at foreign
        obtain ⟨same, later, leads', reflects'', spares'⟩ := ih reflects' foreign ran
        exact ⟨same, later, (handed.trans (leads.buffer _ _)).trans leads', reflects'',
          spares.trans spares'⟩
      · cases (carries.ask reflects foreign refused).1

/-- Batches are handed on until none is left. -/
theorem forward {forwarder : Option ThreadId} {rounds : Nat}
    (held : before.buffers[number]? = some ⟨updates, forwarder⟩) (apart : number ∉ down.buffers)
    (reflects : line.Reflects before down) (foreign : before.thread.id ∉ down.threads)
    (ran : (Deployment.forward next number down rounds).run before = some (result, after)) :
    result = .ok () ∧ after.buffers[number]? = some ⟨[], forwarder⟩ ∧
      ∃ later : Conveyor,
        (Conveyor.buffer ⟨updates, none⟩ (some []) line).Leads
          (.buffer .empty none (later.call .flush)) ∧
        later.Reflects after down ∧ before.Spares (.buffer number down) after := by
  -- The deployment notes which thread forwards; the line does not, as it is called by one only.
  induction rounds generalizing line before updates with
  | zero => cases ran
  | succ rounds ih =>
      obtain ⟨held', _, looked, ran⟩ := Attempt.lift_bind_cases ran
      obtain ⟨rfl, found⟩ := Deployment.buffer_cases looked
      cases found.symm.trans held
      obtain ⟨⟨⟩, taken, put, ran⟩ := Attempt.lift_bind_cases ran
      obtain ⟨emptied, reflects₁, spares₁⟩ := reflects.putBuffer held apart put
      rw [← spares₁.thread] at foreign
      dsimp only [Buffer.takeAll] at ran
      cases updates with
      | nil =>
          cases ran
          exact ⟨rfl, emptied, line, .go reflects.free, reflects₁, spares₁⟩
      | cons update rest =>
          have took : (Conveyor.buffer ⟨update :: rest, none⟩ (some []) line).Leads
              (.buffer .empty (some (update :: rest)) line) := .go reflects.free
          obtain ⟨_, middle, handed, ran⟩ | ⟨error, refused, -⟩ := Attempt.bind_cases ran
          · obtain ⟨-, between, leads, reflects₂, spares₂⟩ :=
              carries.handOn .empty reflects₁ foreign handed
            rw [← spares₂.thread] at foreign
            obtain ⟨same, emptied', later, leads', reflects₃, spares₃⟩ :=
              ih ((spares₂.buffers number apart).trans emptied) reflects₂ foreign ran
            exact ⟨same, emptied', later, (took.trans leads).trans leads', reflects₃,
              (spares₁.trans spares₂.buffer).trans spares₃⟩
          · cases (carries.handOn .empty reflects₁ foreign refused).1

/-- A buffer is flushed: what it holds is handed on, and what it was handed on to is flushed. -/
theorem flushBuffer (held : before.buffers[number]? = some ⟨updates, none⟩)
    (apart : number ∉ down.buffers) (reflects : line.Reflects before down)
    (foreign : before.thread.id ∉ down.threads)
    (ran : (Deployment.flushBuffer next number down).run before = some (result, after)) :
    result = .ok () ∧
      ((Conveyor.buffer ⟨updates, none⟩ none line).call .flush).Attains (.buffer number down)
        before after := by
  obtain ⟨held', _, looked, ran⟩ := Attempt.lift_bind_cases ran
  obtain ⟨rfl, found⟩ := Deployment.buffer_cases looked
  cases found.symm.trans held
  obtain ⟨_, _, got, ran⟩ := Attempt.lift_bind_cases ran
  cases got
  dsimp only at ran
  rw [if_neg nofun] at ran
  obtain ⟨⟨⟩, begun, put, ran⟩ := Attempt.lift_bind_cases ran
  obtain ⟨forwarded, ended, handed, ran⟩ := Attempt.outcome_bind_cases ran
  obtain ⟨⟨⟩, released, put', ran⟩ := Attempt.lift_bind_cases ran
  obtain ⟨held₁, reflects₁, spares₁⟩ := putForwarder held apart reflects put
  rw [← spares₁.thread] at foreign
  obtain ⟨rfl, held₂, between, leads, reflects₂, spares₂⟩ :=
    carries.forward held₁ apart reflects₁ foreign handed
  rw [← spares₂.thread] at foreign
  obtain ⟨held₃, reflects₃, spares₃⟩ := putForwarder held₂ apart reflects₂ put'
  rw [← spares₃.thread] at foreign
  obtain ⟨same, flushed⟩ := carries.ask reflects₃ foreign (show
    (next.ask down .flush).run released = _ from ran)
  obtain ⟨later, leads', reflects₄, spares₄⟩ := flushed.buffer held₃ apart
  exact ⟨same, later, leads.trans leads', reflects₄,
    ((spares₁.trans spares₂).trans spares₃).trans spares₄⟩

/-- The thread of a worker hands on what the worker has. -/
theorem serve (behind : List StageCall) (isAwaited : Bool)
    (reflects : line.Reflects before down) (held : before.workers[number]? = some ⟨updates, true⟩)
    (apart : .worker number ∉ down.threads) (foreign : before.thread.id ∉ down.threads)
    (ran : Deployment.serve next number down updates.length before = some ((), after)) :
    after.workers[number]? = some ⟨[], true⟩ ∧
      ∃ later : Conveyor,
        (Conveyor.worker ⟨updates.map .submit ++ behind, false, isAwaited⟩ line).Leads
          (.worker ⟨behind, false, isAwaited⟩ later) ∧
        later.Reflects after down ∧ before.Spares (.worker number down) after := by
  induction updates generalizing line before with
  | nil =>
      cases ran
      exact ⟨held, line, .refl _, reflects, .refl _ _⟩
  | cons update rest ih =>
      obtain ⟨state, _, looked, ran⟩ := Run.bind_cases ran
      obtain ⟨rfl, found⟩ := Deployment.worker_cases looked
      cases found.symm.trans held
      obtain ⟨⟨⟩, taken, put, ran⟩ := Run.bind_cases ran
      obtain ⟨left, reflects₁, spares₁⟩ := reflects.putWorker held apart put
      rw [← spares₁.thread] at foreign
      obtain ⟨⟨⟩, served, offered, ran⟩ := Run.bind_cases ran
      obtain ⟨answer, _, asked, same⟩ := Run.bind_cases offered
      cases same
      have took : (Conveyor.worker ⟨(update :: rest).map .submit ++ behind, false, isAwaited⟩
            line).Leads
          (.worker ⟨rest.map .submit ++ behind, false, isAwaited⟩ (line.call (.submit update))) :=
        .go reflects.free
      obtain ⟨-, between, leads, reflects₂, spares₂⟩ := carries.ask reflects₁ foreign (show
        (next.ask down (.submit update)).run taken = _ from asked)
      rw [← spares₂.thread] at foreign
      obtain ⟨ends, later, leads', reflects₃, spares₃⟩ :=
        ih reflects₂ ((spares₂.workers number apart).trans left) foreign ran
      exact ⟨ends, later, (took.trans (leads.worker _)).trans leads', reflects₃,
        (spares₁.trans spares₂.worker).trans spares₃⟩

/-- A worker is flushed: its thread hands on what it has, comes to the mark and flushes below. -/
theorem flushWorker (held : before.workers[number]? = some ⟨updates, true⟩)
    (apart : .worker number ∉ down.threads) (reflects : line.Reflects before down)
    (foreign : before.thread.id ≠ .worker number)
    (ran : (Deployment.flushWorker next number down).run before = some (result, after)) :
    result = .ok () ∧
      ((Conveyor.worker ⟨updates.map .submit, false, false⟩ line).call .flush).Attains
        (.worker number down) before after := by
  obtain ⟨isOwn, _, got, ran⟩ := Attempt.lift_bind_cases ran
  cases got
  rw [if_neg (by simpa using foreign)] at ran
  obtain ⟨state, _, looked, ran⟩ := Attempt.lift_bind_cases ran
  obtain ⟨rfl, found⟩ := Deployment.worker_cases looked
  cases found.symm.trans held
  -- From here on the thread of the worker calls what is below, and no worker there has that thread.
  obtain ⟨middle, inside, rfl⟩ := Deployment.onThread_cases ran
  have alone := reflects.onThread (.new (.worker number))
  obtain ⟨⟨⟩, served, serving, flushing⟩ := Run.bind_cases inside
  obtain ⟨_, _, looked, serving⟩ := Run.bind_cases serving
  obtain ⟨rfl, found⟩ := Deployment.worker_cases looked
  cases found.symm.trans held
  obtain ⟨ends, between, leads, reflects₁, spares₁⟩ :=
    carries.serve [.flush] true alone held apart apart serving
  have own : served.thread.id ∉ down.threads := by
    rw [spares₁.thread]
    exact apart
  obtain ⟨rfl, later, leads', reflects₂, spares₂⟩ := carries.ask reflects₁ own (show
    (next.ask down .flush).run served = _ from flushing)
  have told : (Conveyor.worker ⟨[.flush], false, true⟩ between).Leads
      (.worker ⟨[], true, true⟩ (between.call .flush)) := .go reflects₁.free
  have answered : (Conveyor.worker ⟨[], true, true⟩ later).Leads
      (.worker ⟨[], false, false⟩ later) := .go reflects₂.free
  have left := (spares₂.workers number apart).trans ends
  have spares := spares₁.trans spares₂.worker
  exact ⟨rfl, _, ((leads.trans told).trans (leads'.worker _)).trans answered,
    (Conveyor.Reflects.worker left apart reflects₂).onThread before.thread,
    ⟨spares.buffers, spares.workers, rfl⟩⟩

/-- Calls are answered as the line has it. -/
theorem ask_answer {pipeline : Pipeline} {request : StageCall}
    (reflects : line.Reflects before pipeline) (foreign : before.thread.id ∉ pipeline.threads)
    (ran : (Caller.ask ⟨fun call => Deployment.answer next call⟩ pipeline request).run before =
      some (result, after)) :
    result = .ok () ∧ (line.call request).Attains pipeline before after := by
  cases reflects with
  | site there resting =>
      cases request with
      | submit update =>
          obtain ⟨⟨⟩, rfl, changed⟩ := Attempt.lift_cases ran
          exact ⟨rfl, carries.offer there resting changed⟩
      | flush =>
          obtain ⟨⟨⟩, rfl, waited⟩ := Attempt.lift_cases ran
          obtain ⟨rfl, -⟩ := Deployment.awaitIdle_cases waited
          exact ⟨rfl, .refl (.site there resting)⟩
  | buffer there apart below =>
      cases request with
      | submit update =>
          obtain ⟨held, _, looked, ran⟩ := Attempt.lift_bind_cases ran
          obtain ⟨rfl, found⟩ := Deployment.buffer_cases looked
          cases found.symm.trans there
          obtain ⟨⟨⟩, rfl, put⟩ := Attempt.lift_cases ran
          obtain ⟨there', below', spares⟩ := below.putBuffer there apart put
          exact ⟨rfl, _, .refl _, .buffer there' apart below', spares⟩
      | flush => exact carries.flushBuffer there apart below foreign ran
  | worker there apart below =>
      cases request with
      | submit update =>
          obtain ⟨state, _, looked, ran⟩ := Attempt.lift_bind_cases ran
          obtain ⟨rfl, found⟩ := Deployment.worker_cases looked
          cases found.symm.trans there
          obtain ⟨⟨⟩, rfl, put⟩ := Attempt.lift_cases ran
          obtain ⟨there', below', spares⟩ := below.putWorker there apart put
          have reflects := Conveyor.Reflects.worker there' apart below'
          rw [List.map_append] at reflects
          exact ⟨rfl, _, .refl _, reflects, spares⟩
      | flush =>
          exact carries.flushWorker there apart below (List.ne_of_not_mem_cons foreign)
            ran
  | @jitter config line down below =>
      have passed : (Conveyor.jitter (some request) line).Leads
          (.jitter none (line.call request)) := .go below.free
      have ran : (next.ask down request).run before = some (result, after) := by
        cases request <;> exact ran
      obtain ⟨same, attains⟩ := carries.ask below foreign ran
      exact ⟨same, attains.jitter.onward passed⟩

theorem answer : Carries ⟨fun call => Deployment.answer next call⟩ where
  ask reflects foreign ran := carries.ask_answer reflects foreign ran
  root {_ _ standard _ _ _ _ _} laid ran := by
    cases laid with
    | site => cases standard <;> cases ran <;> exact ⟨rfl, rfl⟩
    | buffer _ _ below => exact carries.root below ran
    | worker _ _ below => exact carries.root below ran
    | jitter below => exact carries.root below ran
  drain there working ran := Deployment.drain_attains there working ran

/-- The thread of a worker does what there is to do. -/
theorem runThread {pipeline stage : Pipeline} (reflects : line.Reflects before pipeline)
    (own : stage ∈ pipeline.stages)
    (ran : Deployment.runThread next stage before = some ((), after)) :
    line.Attains pipeline before after := by
  induction reflects with
  | site there resting =>
      obtain rfl := List.mem_singleton.mp own
      cases ran
      exact .refl (.site there resting)
  | buffer there apart below ih =>
      rcases List.mem_cons.mp own with rfl | deeper
      · cases ran
        exact .refl (.buffer there apart below)
      · exact (ih deeper).buffer there apart
  | jitter below ih =>
      rcases List.mem_cons.mp own with rfl | deeper
      · cases ran
        exact .refl (.jitter below)
      · exact (ih deeper).jitter
  | @worker number updates line down there apart below ih =>
      rcases List.mem_cons.mp own with rfl | deeper
      · obtain ⟨_, _, got, ran⟩ := Run.bind_cases ran
        cases got
        split at ran
        · obtain ⟨middle, inside, rfl⟩ := Deployment.onThread_cases ran
          have alone := below.onThread (.new (.worker number))
          obtain ⟨_, _, looked, serving⟩ := Run.bind_cases inside
          obtain ⟨rfl, found⟩ := Deployment.worker_cases looked
          cases found.symm.trans there
          obtain ⟨ends, later, leads, reflects, spares⟩ :=
            carries.serve [] false alone there apart apart serving
          rw [List.append_nil] at leads
          exact ⟨_, leads, (Conveyor.Reflects.worker ends apart reflects).onThread before.thread,
            ⟨spares.buffers, spares.workers, rfl⟩⟩
        · cases ran
          exact .refl (.worker there apart below)
      · exact (ih deeper).worker there apart

end Stages

/-- However deep calls may be nested, they do nothing but what the stages of a line do. -/
theorem performWithin (depth : Nat) :
    Carries ⟨fun call => Deployment.performWithin depth call⟩ := by
  induction depth with
  | zero =>
      constructor
      · rintro line pipeline ⟨update⟩ before result after reflects foreign ran <;> cases ran
      · intro deployment number standard stages pipeline before result after laid ran
        cases ran
      · intro site number standard update updates before after there working ran
        cases ran
  | succ depth ih => exact ih.answer

theorem caller : Carries Deployment.caller := performWithin Deployment.depthLimit

end Carries

end Caller

end StateTree
