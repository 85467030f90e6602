/-
Module: StateTree.Proofs.Lines
Purpose: Lines of stages in a deployment. While no call is at hand, a pipeline of buffers, workers
  and delays in front of a site is a line of stages with what they hold; what the site does with an
  update is a run of that line. What is not of the pipeline does not count.
-/
import StateTree.Deployment.Working
import StateTree.Proofs.Attempts
import StateTree.Proofs.Conveyor

namespace StateTree

/-! ### Steps of a line -/

/-- The one line can become the other by steps of its stages. -/
def Conveyor.Leads (line later : Conveyor) : Prop :=
  ∃ depths : List Nat, depths.foldl (fun line depth => line.work depth) line = later

namespace Conveyor.Leads

variable {line middle later : Conveyor}

/-- A line leads to itself. -/
theorem refl (line : Conveyor) : line.Leads line := ⟨[], rfl⟩

theorem trans (first : line.Leads middle) (second : middle.Leads later) : line.Leads later := by
  obtain ⟨depths, rfl⟩ := first
  obtain ⟨more, rfl⟩ := second
  exact ⟨depths ++ more, List.foldl_append⟩

/-- The first stage takes its next step. -/
theorem go (free : line.isWaiting = false) : line.Leads line.go := by
  refine ⟨[0], ?_⟩
  simp [work, turn, free]

/-- Stages do not heed what stands in front of them. -/
theorem under {front : Conveyor → Conveyor}
    (deeper : ∀ line depth, (front line).work (depth + 1) = front (line.work depth))
    (leads : line.Leads later) : (front line).Leads (front later) := by
  obtain ⟨depths, rfl⟩ := leads
  refine ⟨depths.map (· + 1), ?_⟩
  induction depths generalizing line with
  | nil => rfl
  | cons depth rest ih =>
      rw [List.map_cons, List.foldl_cons, deeper]
      exact ih

/-- Whatever the stages behind it do, a buffer, a worker or a delay may stand in front of them. -/
theorem buffer (leads : line.Leads later) (kept : Buffer) (batch : Option (List Update)) :
    (Conveyor.buffer kept batch line).Leads (.buffer kept batch later) :=
  leads.under fun _ _ => rfl

theorem worker (leads : line.Leads later) (desk : Desk) :
    (Conveyor.worker desk line).Leads (.worker desk later) :=
  leads.under fun _ _ => rfl

theorem jitter (leads : line.Leads later) (delayed : Option StageCall) :
    (Conveyor.jitter delayed line).Leads (.jitter delayed later) :=
  leads.under fun _ _ => rfl

end Conveyor.Leads

/-! ### What a deployment holds -/

/-- The numbers of the buffers of a pipeline. -/
def Pipeline.buffers (pipeline : Pipeline) : List Nat :=
  pipeline.stages.filterMap fun
    | .buffer number _ => some number
    | _ => none

namespace Deployment

/-- The site of a number. -/
def site? (deployment : Deployment) (number : Nat) : Option (Site Nat) :=
  deployment.stations[number]?.map Station.site

/-- Nothing was changed but what is of a pipeline: the other buffers and workers are as they were,
and the same thread is running. -/
structure Spares (before : Deployment) (pipeline : Pipeline) (after : Deployment) : Prop where
  buffers : ∀ number ∉ pipeline.buffers, after.buffers[number]? = before.buffers[number]?
  workers : ∀ number, .worker number ∉ pipeline.threads →
    after.workers[number]? = before.workers[number]?
  thread : after.thread.id = before.thread.id

variable {before middle after : Deployment} {pipeline down : Pipeline}

namespace Spares

/-- What is not of the pipeline is spared if buffers, workers and the running thread are as
before. -/
theorem of_eq (buffers : after.buffers = before.buffers) (workers : after.workers = before.workers)
    (thread : after.thread.id = before.thread.id) : before.Spares pipeline after :=
  ⟨fun _ _ => by rw [buffers], fun _ _ => by rw [workers], thread⟩

theorem refl (deployment : Deployment) (pipeline : Pipeline) :
    deployment.Spares pipeline deployment :=
  .of_eq rfl rfl rfl

theorem trans (first : before.Spares pipeline middle) (second : middle.Spares pipeline after) :
    before.Spares pipeline after where
  buffers number other := (second.buffers number other).trans (first.buffers number other)
  workers number other := (second.workers number other).trans (first.workers number other)
  thread := second.thread.trans first.thread

/-- What is of a pipeline is of one that hands on to it. -/
theorem under (spares : before.Spares down after) (buffers : down.buffers ⊆ pipeline.buffers)
    (threads : down.threads ⊆ pipeline.threads) : before.Spares pipeline after where
  buffers number other := spares.buffers number fun member => other (buffers member)
  workers number other := spares.workers number fun member => other (threads member)
  thread := spares.thread

theorem buffer {number : Nat} (spares : before.Spares down after) :
    before.Spares (.buffer number down) after :=
  spares.under (List.subset_cons_self _ _) (List.Subset.refl _)

theorem worker {number : Nat} (spares : before.Spares down after) :
    before.Spares (.worker number down) after :=
  spares.under (List.Subset.refl _) (List.subset_cons_self _ _)

theorem jitter {config : JitterConfig} (spares : before.Spares down after) :
    before.Spares (.jitter config down) after :=
  spares.under (List.Subset.refl _) (List.Subset.refl _)

/-- A buffer or a worker that belongs to the pipeline may change. -/
theorem putBuffer (deployment : Deployment) (number : Nat) (held : Buffer) :
    deployment.Spares (.buffer number down)
      { deployment with buffers := deployment.buffers.set number held } where
  buffers _ other := List.getElem?_set_ne (by rintro rfl; exact other List.mem_cons_self)
  workers _ _ := rfl
  thread := rfl

theorem putWorker (deployment : Deployment) (number : Nat) (state : Worker) :
    deployment.Spares (.worker number down)
      { deployment with workers := deployment.workers.set number state } where
  buffers _ _ := rfl
  workers _ other := List.getElem?_set_ne (by rintro rfl; exact other List.mem_cons_self)
  thread := rfl

end Spares

end Deployment

/-! ### Lines of a deployment -/

namespace Conveyor

open Deployment

/-- The line is a pipeline of a deployment while no call is at hand. -/
inductive Reflects (deployment : Deployment) : Conveyor → Pipeline → Prop where
  | site {number : Nat} {standard : Option Node} {site : Site Nat}
      (there : deployment.site? number = some site) (resting : site.Resting) :
      Reflects deployment (.site ⟨site, .absent⟩) (.site number standard)
  | buffer {number : Nat} {updates : List Update} {line : Conveyor} {down : Pipeline}
      (there : deployment.buffers[number]? = some ⟨updates, none⟩) (apart : number ∉ down.buffers)
      (below : Reflects deployment line down) :
      Reflects deployment (.buffer ⟨updates, none⟩ none line) (.buffer number down)
  | worker {number : Nat} {updates : List Update} {line : Conveyor} {down : Pipeline}
      (there : deployment.workers[number]? = some ⟨updates, true⟩)
      (apart : .worker number ∉ down.threads) (below : Reflects deployment line down) :
      Reflects deployment (.worker ⟨updates.map .submit, false, false⟩ line) (.worker number down)
  | jitter {config : JitterConfig} {line : Conveyor} {down : Pipeline}
      (below : Reflects deployment line down) :
      Reflects deployment (.jitter none line) (.jitter config down)

/-- The line can become the pipeline of a later deployment, and meanwhile nothing was changed but
what is of the pipeline. -/
def Attains (line : Conveyor) (pipeline : Pipeline) (before after : Deployment) : Prop :=
  ∃ later, line.Leads later ∧ later.Reflects after pipeline ∧ before.Spares pipeline after

variable {line later : Conveyor} {pipeline down : Pipeline} {before after : Deployment}

namespace Reflects

theorem free (reflects : line.Reflects before pipeline) : line.isBusy = false := by
  induction reflects with
  | site => rfl
  | buffer _ _ _ ih => exact ih
  | worker => rfl
  | jitter _ ih => exact ih

/-- Only what is of the pipeline counts. -/
theorem congr (reflects : line.Reflects before pipeline)
    (stations : after.stations = before.stations)
    (buffers : ∀ number ∈ pipeline.buffers, after.buffers[number]? = before.buffers[number]?)
    (workers : ∀ number, .worker number ∈ pipeline.threads →
      after.workers[number]? = before.workers[number]?) : line.Reflects after pipeline := by
  induction reflects with
  | site there resting =>
      refine .site ?_ resting
      rw [site?, stations]
      exact there
  | buffer there apart _ ih =>
      refine .buffer ?_ apart (ih ?_ workers)
      · exact (buffers _ List.mem_cons_self).trans there
      · exact fun number member => buffers number (List.mem_cons_of_mem _ member)
  | worker there apart _ ih =>
      refine .worker ?_ apart (ih buffers ?_)
      · exact (workers _ List.mem_cons_self).trans there
      · exact fun number member => workers number (List.mem_cons_of_mem _ member)
  | jitter _ ih => exact .jitter (ih buffers workers)

/-- What is put in place of a buffer is none of what the buffer hands on to. -/
theorem putBuffer (reflects : line.Reflects before down) {number : Nat} {old : Buffer}
    (held : before.buffers[number]? = some old) (apart : number ∉ down.buffers) {new : Buffer}
    (put : Deployment.putBuffer number new before = some ((), after)) :
    after.buffers[number]? = some new ∧ line.Reflects after down ∧
      before.Spares (.buffer number down) after := by
  cases put
  refine ⟨List.getElem?_set_self (List.getElem?_eq_some_iff.mp held).1, ?_, .putBuffer _ _ _⟩
  refine reflects.congr rfl (fun other member => ?_) fun _ _ => rfl
  exact List.getElem?_set_ne (by rintro rfl; exact apart member)

theorem putWorker (reflects : line.Reflects before down) {number : Nat} {old : Worker}
    (held : before.workers[number]? = some old) (apart : .worker number ∉ down.threads)
    {new : Worker} (put : Deployment.putWorker number new before = some ((), after)) :
    after.workers[number]? = some new ∧ line.Reflects after down ∧
      before.Spares (.worker number down) after := by
  cases put
  refine ⟨List.getElem?_set_self (List.getElem?_eq_some_iff.mp held).1, ?_, .putWorker _ _ _⟩
  refine reflects.congr rfl (fun _ _ => rfl) fun other member => ?_
  exact List.getElem?_set_ne (by rintro rfl; exact apart member)

theorem onThread (reflects : line.Reflects before pipeline) (thread : Thread) :
    line.Reflects { before with thread := thread } pipeline :=
  reflects.congr rfl (fun _ _ => rfl) fun _ _ => rfl

end Reflects

namespace Attains

theorem refl (reflects : line.Reflects before pipeline) : line.Attains pipeline before before :=
  ⟨line, .refl line, reflects, .refl before pipeline⟩

theorem onward {middle : Conveyor} (leads : line.Leads middle)
    (attains : middle.Attains pipeline before after) : line.Attains pipeline before after := by
  obtain ⟨later, further, reflects, spares⟩ := attains
  exact ⟨later, leads.trans further, reflects, spares⟩

theorem buffer {number : Nat} {updates : List Update} (attains : line.Attains down before after)
    (there : before.buffers[number]? = some ⟨updates, none⟩) (apart : number ∉ down.buffers) :
    (Conveyor.buffer ⟨updates, none⟩ none line).Attains (.buffer number down) before after := by
  obtain ⟨later, leads, reflects, spares⟩ := attains
  have kept := (spares.buffers number apart).trans there
  exact ⟨_, leads.buffer _ _, .buffer kept apart reflects, spares.buffer⟩

theorem worker {number : Nat} {updates : List Update} (attains : line.Attains down before after)
    (there : before.workers[number]? = some ⟨updates, true⟩)
    (apart : .worker number ∉ down.threads) :
    (Conveyor.worker ⟨updates.map .submit, false, false⟩ line).Attains (.worker number down) before
      after := by
  obtain ⟨later, leads, reflects, spares⟩ := attains
  have kept := (spares.workers number apart).trans there
  exact ⟨_, leads.worker _, .worker kept apart reflects, spares.worker⟩

theorem jitter {config : JitterConfig} (attains : line.Attains down before after) :
    (Conveyor.jitter none line).Attains (.jitter config down) before after := by
  obtain ⟨later, leads, reflects, spares⟩ := attains
  exact ⟨_, leads.jitter _, .jitter reflects, spares.jitter⟩

end Attains

end Conveyor

/-! ### The site -/

/-- A site that is started and has no hooks, where these updates wait. -/
structure Site.Working {κ : Type} (site : Site κ) (updates : List Update) : Prop where
  started : site.queue.isStarted = true
  pending : site.queue.pending = updates.map .apply
  hookless : site.hooks.hooks = []

namespace Site.Working

variable {κ : Type} {site : Site κ} {update : Update} {rest : List Update}

/-- One drains the site where an update has just been added. -/
theorem of_resting (resting : site.Resting) (update : Update) :
    (site.enqueue (.apply update)).1 = true ∧
      (site.enqueue (.apply update)).2.Working [update] := by
  obtain ⟨started, unmanned, done, hookless⟩ := resting
  have claims : site.queue.enqueue (.apply update) = (true,
      { site.queue with
        pending := [.apply update]
        enqueued := site.queue.enqueued + 1
        isDraining := true }) := by
    simp [WorkQueue.enqueue, WorkQueue.claim, started, unmanned, done]
  unfold Site.enqueue
  rw [claims]
  exact ⟨rfl, started, rfl, hookless⟩

/-- An update that is processed runs no hooks. -/
theorem process {updates : List Update} (working : site.Working updates) (update : Update) :
    (site.process (.apply update)).1.Working updates ∧
      (site.process (.apply update)).2 = [] := by
  obtain ⟨started, pending, hookless⟩ := working
  have queue := (Workplace.process_spec site (.apply update)).2.2
  constructor
  · refine ⟨?_, ?_, ?_⟩
    · rw [queue]
      exact started
    · rw [queue]
      exact pending
    · simp only [Site.process, Site.commit]
      split <;> exact hookless
  · simp only [Site.process, Site.commit]
    split <;> simp [callsFor, hookless]

/-- The drainer takes the next update. -/
theorem take_cons (working : site.Working (update :: rest)) :
    site.take.1 = some (.apply update) ∧ site.take.2.Working rest := by
  obtain ⟨started, pending, hookless⟩ := working
  have taken : site.queue.take =
      (some (.apply update), { site.queue with pending := rest.map .apply }) := by
    rw [WorkQueue.take, pending]
    rfl
  unfold Site.take
  rw [taken]
  exact ⟨rfl, started, rfl, hookless⟩

/-- There is nothing left to take, and the drainer is gone. -/
theorem take_nil (working : site.Working []) : site.take.1 = none ∧ site.take.2.Resting := by
  obtain ⟨started, pending, hookless⟩ := working
  have taken : site.queue.take = (none, { site.queue with isDraining := false }) := by
    simp only [WorkQueue.take, pending, List.map_nil]
  unfold Site.take
  rw [taken]
  exact ⟨rfl, started, rfl, pending, hookless⟩

/-- What is done is counted, which changes nothing else. -/
theorem count {updates : List Update} (working : site.Working updates) :
    Site.Working
      { site with queue := { site.queue with completed := site.queue.completed + 1 } } updates :=
  ⟨working.started, working.pending, working.hookless⟩

/-- Who is done with an item takes the next one, or finds none. -/
theorem finish_cons (working : site.Working (update :: rest)) :
    site.finish.1 = some (.apply update) ∧ site.finish.2.Working rest :=
  working.count.take_cons

theorem finish_nil (working : site.Working []) :
    site.finish.1 = none ∧ site.finish.2.Resting :=
  working.count.take_nil

end Site.Working

namespace Deployment

variable {next : Caller} {number : Nat} {standard : Option Node} {before after : Deployment}
  {pipeline : Pipeline} {site : Site Nat} {updates : List Update}

/-- The site is found where it stands. -/
theorem site?_cases (there : before.site? number = some site) {own : Station}
    (looked : station number before = some (own, after)) : before = after ∧ own.site = site := by
  obtain ⟨rfl, found⟩ := station_cases looked
  rw [site?, found] at there
  cases there
  exact ⟨rfl, rfl⟩

theorem putSite_cases (there : before.site? number = some site) {changed : Site Nat}
    (put : putSite number changed before = some ((), after)) :
    after.site? number = some changed ∧ before.Spares pipeline after := by
  obtain ⟨own, found, -⟩ := Option.map_eq_some_iff.mp there
  cases put
  exact ⟨by simp [site?, found], .of_eq rfl rfl rfl⟩

/-- A change to a site, and the work that it leads to. -/
theorem changeSite_cases (there : before.site? number = some site)
    {change : Site Nat → Bool × Site Nat}
    (ran : changeSite next number change before = some ((), after)) :
    ∃ middle, putSite number (change site).2 before = some ((), middle) ∧
      (if (change site).1 then next.perform (.drain number) else pure ()) middle =
        some ((), after) := by
  obtain ⟨own, _, looked, ran⟩ := Run.bind_cases ran
  obtain ⟨rfl, rfl⟩ := site?_cases there looked
  obtain ⟨⟨⟩, middle, put, ran⟩ := Run.bind_cases ran
  exact ⟨middle, put, ran⟩

theorem takeWork_cases (there : before.site? number = some site)
    {take : Site Nat → Option (WorkItem Nat) × Site Nat} {item : Option (WorkItem Nat)}
    (ran : takeWork number take before = some (item, after)) :
    item = (take site).1 ∧ after.site? number = some (take site).2 ∧
      before.Spares pipeline after := by
  obtain ⟨own, _, looked, ran⟩ := Run.bind_cases ran
  obtain ⟨rfl, rfl⟩ := site?_cases there looked
  obtain ⟨⟨⟩, _, put, ran⟩ := Run.bind_cases ran
  cases ran
  exact ⟨rfl, putSite_cases there put⟩

/-- An item of work that runs no hooks only changes the site. -/
theorem work_cases (there : before.site? number = some site) (working : site.Working updates)
    {update : Update} (ran : work next number (.apply update) before = some ((), after)) :
    after.site? number = some (site.process (.apply update)).1 ∧
      before.Spares pipeline after := by
  obtain ⟨own, _, looked, ran⟩ := Run.bind_cases ran
  obtain ⟨rfl, rfl⟩ := site?_cases there looked
  have silent := (working.process update).2
  generalize own.site.process (.apply update) = processed at ran silent ⊢
  obtain ⟨changed, calls⟩ := processed
  cases silent
  obtain ⟨⟨⟩, middle, put, ran⟩ := Run.bind_cases ran
  obtain ⟨there', spares⟩ :
      middle.site? number = some changed ∧ before.Spares pipeline middle :=
    putSite_cases there put
  -- No hook is called, so the context that the item brings is entered and left for nothing.
  cases outlet : own.outlet with
  | none =>
      rw [outlet] at ran
      cases ran
      exact ⟨there', spares⟩
  | some down =>
      rw [outlet] at ran
      cases ran
      exact ⟨there', spares.trans (.of_eq rfl rfl rfl)⟩

/-- What waits at a site is done step by step. -/
theorem workOff_attains {update : Update} {count : Nat} (there : before.site? number = some site)
    (working : site.Working updates)
    (ran : workOff next number (some (.apply update)) count before = some ((), after)) :
    (Conveyor.site ⟨site, .holding (.apply update)⟩).Attains (.site number standard) before
      after := by
  induction count generalizing site updates update before with
  | zero => cases ran
  | succ count ih =>
      obtain ⟨⟨⟩, middle, worked, ran⟩ := Run.bind_cases ran
      obtain ⟨item, taken, took, ran⟩ := Run.bind_cases ran
      obtain ⟨there₁, spares₁⟩ := work_cases there working worked
      obtain ⟨rfl, there₂, spares₂⟩ := takeWork_cases there₁ took
      have spares : before.Spares (.site number standard) taken := spares₁.trans spares₂
      have working' := (working.process update).1
      have processed : (Conveyor.site ⟨site, .holding (.apply update)⟩).Leads
          (.site (Workplace.hold (site.process (.apply update)).1.finish)) :=
        .trans (.go rfl) (.go rfl)
      generalize (site.process (.apply update)).1 = changed at *
      cases updates with
      | nil =>
          obtain ⟨none, resting⟩ := working'.finish_nil
          rw [none] at ran
          rw [Workplace.hold, none] at processed
          have done : after = taken := by cases count <;> cases ran <;> rfl
          exact ⟨_, processed, .site (done ▸ there₂) resting, done ▸ spares⟩
      | cons following rest =>
          obtain ⟨some, working''⟩ := working'.finish_cons
          rw [some] at ran
          rw [Workplace.hold, some] at processed
          obtain ⟨later, leads, reflects, spares'⟩ := ih there₂ working'' ran
          exact ⟨later, processed.trans leads, reflects, spares.trans spares'⟩

/-- The one who drains the site does all that waits there. -/
theorem drain_attains {update : Update} (there : before.site? number = some site)
    (working : site.Working (update :: updates))
    (ran : drain next number before = some ((), after)) :
    (Conveyor.site ⟨site, .arriving⟩).Attains (.site number standard) before after := by
  obtain ⟨⟨⟩, begun, entered, ran⟩ := Run.bind_cases ran
  obtain ⟨item, taken, took, ran⟩ := Run.bind_cases ran
  obtain ⟨⟨⟩, ended, worked, left⟩ := Run.bind_cases ran
  obtain ⟨there₁, spares₁⟩ :
      begun.site? number = some site ∧ before.Spares (.site number standard) begun := by
    cases entered
    exact ⟨there, .of_eq rfl rfl rfl⟩
  obtain ⟨rfl, there₂, spares₂⟩ := takeWork_cases there₁ took
  obtain ⟨some, working'⟩ := working.take_cons
  have held : (Conveyor.site ⟨site, .arriving⟩).Leads (.site (Workplace.hold site.take)) := .go rfl
  rw [some] at worked
  rw [Workplace.hold, some] at held
  obtain ⟨later, leads, reflects, spares₃⟩ := workOff_attains there₂ working' worked
  have spares := (spares₁.trans spares₂).trans spares₃
  cases left
  exact ⟨later, held.trans leads, reflects.onThread _, spares.trans (.of_eq rfl rfl rfl)⟩

end Deployment

/-! ### New stacks -/

namespace Deployment

/-- The stages of a stack have been laid in front of a site, and hold nothing yet. -/
inductive Laid (deployment : Deployment) (number : Nat) (standard : Option Node) :
    List Stage → Pipeline → Prop where
  | site : Laid deployment number standard [] (.site number standard)
  | buffer {own : Nat} {name : Option String} {rest : List Stage} {down : Pipeline}
      (there : deployment.buffers[own]? = some .empty) (apart : own ∉ down.buffers)
      (below : Laid deployment number standard rest down) :
      Laid deployment number standard (.buffering name :: rest) (.buffer own down)
  | worker {own : Nat} {rest : List Stage} {down : Pipeline}
      (there : deployment.workers[own]? = some .idle) (apart : .worker own ∉ down.threads)
      (below : Laid deployment number standard rest down) :
      Laid deployment number standard (.asynchronous :: rest) (.worker own down)
  | jitter {config : JitterConfig} {rest : List Stage} {down : Pipeline}
      (below : Laid deployment number standard rest down) :
      Laid deployment number standard (.jitter config :: rest) (.jitter config down)

variable {before after deployment : Deployment} {number : Nat} {standard : Option Node}
  {stages : List Stage} {pipeline : Pipeline}

namespace Laid

/-- The threads of a stack are those of its workers, and its buffers and workers are there. -/
theorem main_not_mem (laid : deployment.Laid number standard stages pipeline) :
    .main ∉ pipeline.threads := by
  induction laid with
  | site => exact List.not_mem_nil
  | buffer _ _ _ ih => exact ih
  | worker _ _ _ ih => exact List.not_mem_cons_of_ne_of_not_mem nofun ih
  | jitter _ ih => exact ih

theorem buffers_lt (laid : deployment.Laid number standard stages pipeline) :
    ∀ own ∈ pipeline.buffers, own < deployment.buffers.length := by
  induction laid with
  | site => exact nofun
  | buffer there _ _ ih =>
      exact List.forall_mem_cons.mpr ⟨(List.getElem?_eq_some_iff.mp there).1, ih⟩
  | worker _ _ _ ih => exact ih
  | jitter _ ih => exact ih

theorem workers_lt (laid : deployment.Laid number standard stages pipeline) {own : Nat}
    (member : .worker own ∈ pipeline.threads) : own < deployment.workers.length := by
  induction laid with
  | site => cases member
  | buffer _ _ _ ih => exact ih member
  | worker there _ _ ih =>
      rcases List.mem_cons.mp member with same | deeper
      · cases same
        exact (List.getElem?_eq_some_iff.mp there).1
      · exact ih deeper
  | jitter _ ih => exact ih member

/-- What is built later comes behind. -/
theorem later (laid : before.Laid number standard stages pipeline)
    (buffers : before.buffers <+: after.buffers) (workers : before.workers <+: after.workers) :
    after.Laid number standard stages pipeline := by
  induction laid with
  | site => exact .site
  | buffer there apart _ ih =>
      obtain ⟨more, added⟩ := buffers
      refine .buffer ?_ apart ih
      rw [← added, List.getElem?_append_left (List.getElem?_eq_some_iff.mp there).1]
      exact there
  | worker there apart _ ih =>
      obtain ⟨more, added⟩ := workers
      refine .worker ?_ apart ih
      rw [← added, List.getElem?_append_left (List.getElem?_eq_some_iff.mp there).1]
      exact there
  | jitter _ ih => exact .jitter ih

/-- Once the site has started, the stages that were laid are a line of the deployment. -/
theorem reflects (laid : deployment.Laid number standard stages pipeline) {site : Site Nat}
    (there : deployment.site? number = some site) (resting : site.Resting) :
    (Conveyor.ofStack stages site).Reflects deployment pipeline := by
  induction laid with
  | site => exact .site there resting
  | buffer held apart _ ih => exact .buffer held apart ih
  | worker held apart _ ih => exact .worker held apart ih
  | jitter _ ih => exact .jitter ih

theorem site?_of_reflects (laid : deployment.Laid number standard stages pipeline)
    {line : Conveyor} (reflects : line.Reflects after pipeline) :
    after.site? number = some line.place.site := by
  induction laid generalizing line with
  | site =>
      cases reflects with
      | site there => exact there
  | buffer _ _ _ ih =>
      cases reflects with
      | buffer _ _ below => exact (ih below).trans rfl
  | worker _ _ _ ih =>
      cases reflects with
      | worker _ _ below => exact (ih below).trans rfl
  | jitter _ ih =>
      cases reflects with
      | jitter below => exact (ih below).trans rfl

end Laid

end Deployment

end StateTree
