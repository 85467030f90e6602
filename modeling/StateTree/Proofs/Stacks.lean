/-
Module: StateTree.Proofs.Stacks
Purpose: Stacks of buffers, workers and delays in front of a site of a deployment. A stack that has
  been launched is a line of stages that hold nothing yet, and what happens then, be it on the
  thread of the caller or on those of the workers, is a run of that line.
-/
import StateTree.Deployment.Build
import StateTree.Proofs.Buffering
import StateTree.Proofs.Carrying
import StateTree.Proofs.Typing

namespace StateTree

/-! ### Acts -/

/-- What happens to a stack: its caller makes a call, or the thread of one of its stages does what
there is to do. -/
inductive StackAct where
  | call (request : StageCall)
  | turn (stage : Pipeline)

namespace StackAct

/-- Have it happen, with the answer to the call. -/
def perform (pipeline : Pipeline) : StackAct → Run (List (Except PipelineError Unit))
  | .call request => do
      let answer ← (Deployment.caller.ask pipeline request).run
      pure [answer]
  | .turn stage => do
      Deployment.runThread Deployment.caller stage
      pure []

/-- One act after the other. -/
def performAll (pipeline : Pipeline) : List StackAct → Run (List (Except PipelineError Unit))
  | [] => pure []
  | act :: rest => do
      let answers ← act.perform pipeline
      let others ← performAll pipeline rest
      pure (answers ++ others)

/-- What is submitted. -/
def updates : StackAct → List Update
  | .call request => request.updates
  | .turn _ => []

/-- Only the threads of a pipeline's own stages have their turn. -/
def IsOf (pipeline : Pipeline) : StackAct → Prop
  | .call _ => True
  | .turn stage => stage ∈ pipeline.stages

end StackAct

namespace Session

variable {session : Session} {pipeline : Pipeline} {before after : Deployment}

theorem run_append (session : Session) (events more : List ConveyorEvent) :
    session.run (events ++ more) = (session.run events).run more :=
  List.foldl_append

/-- Steps of stages only move the line. -/
theorem run_of_leads (session : Session) {later : Conveyor} (leads : session.line.Leads later) :
    ∃ events, session.run events = { session with line := later } := by
  obtain ⟨depths, rfl⟩ := leads
  refine ⟨depths.map .work, ?_⟩
  induction depths generalizing session with
  | nil => rfl
  | cons depth rest ih => exact ih (session.after (.work depth))

/-- A call of the deployment is one of the session, with the steps that it leads to. -/
theorem ask {request : StageCall} {answer : Except PipelineError Unit}
    (reflects : session.line.Reflects before pipeline)
    (foreign : before.thread.id ∉ pipeline.threads)
    (ran : (Deployment.caller.ask pipeline request).run before = some (answer, after)) :
    answer = .ok () ∧ after.thread.id = before.thread.id ∧
      ∃ events later, session.run events =
          ⟨later, session.submitted ++ request.updates, request == .flush⟩ ∧
        later.Reflects after pipeline := by
  obtain ⟨same, later, leads, reflects', spares⟩ := Caller.Carries.caller.ask reflects foreign ran
  let asked : Session :=
    ⟨session.line.call request, session.submitted ++ request.updates, request == .flush⟩
  have called : session.after (.call request) = asked := by
    rw [Session.after, reflects.free]
    rfl
  obtain ⟨events, moved⟩ := asked.run_of_leads leads
  refine ⟨same, spares.thread, .call request :: events, later, ?_, reflects'⟩
  rw [run, List.foldl_cons, called]
  exact moved

theorem performAll {acts : List StackAct} {answers : List (Except PipelineError Unit)}
    (reflects : session.line.Reflects before pipeline)
    (foreign : before.thread.id ∉ pipeline.threads) (own : ∀ act ∈ acts, act.IsOf pipeline)
    (ran : StackAct.performAll pipeline acts before = some (answers, after)) :
    (∀ answer ∈ answers, answer = .ok ()) ∧ after.thread.id = before.thread.id ∧
      ∃ events, (session.run events).line.Reflects after pipeline ∧
        (session.run events).submitted = session.submitted ++ acts.flatMap StackAct.updates := by
  induction acts generalizing session before answers with
  | nil =>
      cases ran
      exact ⟨nofun, rfl, [], reflects, (List.append_nil _).symm⟩
  | cons act rest ih =>
      obtain ⟨here, later⟩ := List.forall_mem_cons.mp own
      obtain ⟨first, middle, acted, ran⟩ := Run.bind_cases ran
      obtain ⟨others, _, onward, same⟩ := Run.bind_cases ran
      cases same
      obtain ⟨fine, thread, events, moved, added⟩ :
          (∀ answer ∈ first, answer = .ok ()) ∧ middle.thread.id = before.thread.id ∧
            ∃ events, (session.run events).line.Reflects middle pipeline ∧
              (session.run events).submitted = session.submitted ++ act.updates := by
        cases act with
        | call request =>
            obtain ⟨answer, _, asked, same⟩ := Run.bind_cases acted
            cases same
            obtain ⟨rfl, thread, events, later, became, reflects'⟩ :=
              session.ask reflects foreign asked
            exact ⟨by simp, thread, events, became ▸ reflects', became ▸ rfl⟩
        | turn stage =>
            obtain ⟨⟨⟩, _, turned, same⟩ := Run.bind_cases acted
            cases same
            obtain ⟨later, leads, reflects', spares⟩ :=
              Caller.Carries.caller.runThread reflects here turned
            obtain ⟨events, moved⟩ := session.run_of_leads leads
            exact ⟨nofun, spares.thread, events, moved ▸ reflects',
              moved ▸ (List.append_nil _).symm⟩
      rw [← thread] at foreign
      obtain ⟨fine', thread', more, moved', added'⟩ := ih moved foreign later onward
      refine ⟨List.forall_mem_append.mpr ⟨fine, fine'⟩, thread'.trans thread, events ++ more, ?_⟩
      rw [run_append]
      exact ⟨moved', by rw [added', added, List.append_assoc]; rfl⟩

end Session

/-! ### Launched stacks -/

namespace Deployment

variable {before middle after deployment : Deployment} {number : Nat} {standard : Option Node}
  {stages : List Stage} {pipeline : Pipeline}

/-- A stack of stages that hold updates back is laid, and nothing else happens. -/
theorem assembleStack_laid {next : Caller} (holding : ∀ stage ∈ stages, stage.holdsBack = true)
    {result : Except PipelineError Pipeline}
    (ran : (assembleStack next number stages (.site number standard)).run before =
      some (result, after)) :
    ∃ pipeline, result = .ok pipeline ∧ after.Laid number standard stages pipeline ∧
      after.stations = before.stations ∧ after.thread = before.thread := by
  induction stages generalizing result after with
  | nil =>
      cases ran
      exact ⟨_, rfl, .site, rfl, rfl⟩
  | cons stage rest ih =>
      obtain ⟨here, below⟩ := List.forall_mem_cons.mp holding
      obtain ⟨inner, middle, laid, ran⟩ | ⟨error, failed, -⟩ := Attempt.bind_cases ran
      case inr =>
        obtain ⟨_, same, -⟩ := ih below failed
        cases same
      obtain ⟨_, same, laid, stations, thread⟩ := ih below laid
      cases same
      cases stage with
      | buffering name =>
          cases ran
          refine ⟨_, rfl, .buffer ?_ ?_ (laid.later (List.prefix_append _ _) List.prefix_rfl),
            stations, thread⟩
          · exact List.getElem?_concat_length
          · exact fun member => Nat.lt_irrefl _ (laid.buffers_lt _ member)
      | asynchronous =>
          cases ran
          refine ⟨_, rfl, .worker ?_ ?_ (laid.later List.prefix_rfl (List.prefix_append _ _)),
            stations, thread⟩
          · exact List.getElem?_concat_length
          · exact fun member => Nat.lt_irrefl _ (laid.workers_lt member)
      | jitter config =>
          cases ran
          exact ⟨_, rfl, .jitter laid, stations, thread⟩
      | _ => cases here

/-- The site of a launched stack rests, with the root that it was given, and the stack is a line
that holds nothing yet. -/
theorem launch_stack {name : String} {identity : Identifier} {schema : Schema}
    (holding : ∀ stage ∈ stages, stage.holdsBack = true)
    (unused : before.stations[number]? = some ⟨.new name identity schema, none⟩)
    (launched : (launch caller number standard stages).run before = some (.ok (), middle)) :
    ∃ site pipeline, middle.stations[number]? = some ⟨site, some pipeline⟩ ∧ site.Resting ∧
      site.schema = schema ∧ standard.map schema.polyfill = some site.root ∧
        middle.Laid number standard stages pipeline ∧ middle.thread = before.thread := by
  obtain ⟨pipeline, built, assembled, rest⟩ | ⟨_, -, failed⟩ := Attempt.bind_cases launched
  case inr => cases failed
  obtain ⟨_, same, laid, stations, thread⟩ := assembleStack_laid holding assembled
  cases same
  obtain ⟨⟨⟩, placed, put, rest⟩ := Attempt.lift_bind_cases rest
  obtain ⟨there, laid, thread⟩ :
      placed.stations[number]? = some ⟨.new name identity schema, some pipeline⟩ ∧
        placed.Laid number standard stages pipeline ∧ placed.thread = before.thread := by
    cases put
    refine ⟨?_, laid.later List.prefix_rfl List.prefix_rfl, thread⟩
    simp [stations, unused]
  obtain ⟨supplied, _, rooted, rest⟩ | ⟨_, -, failed⟩ := Attempt.bind_cases rest
  case inr => cases failed
  obtain ⟨rfl, given⟩ := Caller.Carries.caller.root laid rooted
  obtain ⟨own, _, looked, rest⟩ := Attempt.lift_bind_cases rest
  obtain ⟨rfl, found⟩ := station_cases looked
  cases found.symm.trans there
  dsimp only at rest
  split at rest
  case h_2 => cases rest
  obtain ⟨⟨⟩, -, started⟩ := Attempt.lift_cases rest
  have own : placed.site? number = some (.new name identity schema) := by
    rw [site?, there]
    rfl
  obtain ⟨final, put, ran⟩ := changeSite_cases own started
  cases ran
  cases put
  let site : Site Nat := ((Site.new name identity schema).start (schema.polyfill supplied)).2
  refine ⟨site, pipeline, ?_, ⟨rfl, rfl, rfl, rfl⟩, rfl, ?_, ?_, thread⟩
  · change (placed.stations.modify number _)[number]? = _
    rw [List.getElem?_modify, there]
    exact congrArg some (if_pos rfl)
  · rw [← given]
    rfl
  · exact laid.later List.prefix_rfl List.prefix_rfl

/-- Stacks of buffers, workers and delays are transparent. Let a site without hooks be launched with
one, and let one caller submit and flush. However the stages take their steps, at each moment the
root is what some first part of the submitted updates makes of the root in the beginning; and
whenever a flush has returned it is what all of them make of it, as it does where nothing stands
in front of the site. What the deployment does, with the turns of the workers at any time between
the calls, is one of the ways in which the stages take their steps, and no call fails. -/
theorem stack_transparent {name : String} {identity : Identifier} {schema : Schema}
    (holding : ∀ stage ∈ stages, stage.holdsBack = true)
    (unused : before.stations[number]? = some ⟨.new name identity schema, none⟩)
    (main : before.thread.id = .main)
    (launched : (launch caller number standard stages).run before = some (.ok (), middle)) :
    ∃ site pipeline, middle.stations[number]? = some ⟨site, some pipeline⟩ ∧
      site.hooks.hooks = [] ∧ site.schema = schema ∧
      standard.map schema.polyfill = some site.root ∧
      (∀ events, let session := (Session.new (.ofStack stages site)).run events
        (∃ count, count ≤ session.submitted.length ∧ session.root =
          (session.submitted.take count).foldl (Update.foldInto schema) site.root) ∧
        (session.hasFlushed = true →
          session.root = session.submitted.foldl (Update.foldInto schema) site.root ∧
          ∀ others, let plain := (Session.new (.ofStack [] site)).run others
            plain.hasFlushed = true → plain.submitted = session.submitted →
              plain.root = session.root)) ∧
      ∀ acts answers after, (∀ act ∈ acts, act.IsOf pipeline) →
        StackAct.performAll pipeline acts middle = some (answers, after) →
          (∀ answer ∈ answers, answer = .ok ()) ∧
          (∃ events, let session := (Session.new (.ofStack stages site)).run events
            session.submitted = acts.flatMap StackAct.updates ∧
              (after.site? number).map Site.root = some session.root) ∧
          ∀ answer last, (caller.ask pipeline .flush).run after = some (answer, last) →
            answer = .ok () ∧ (last.site? number).map Site.root =
              some ((acts.flatMap StackAct.updates).foldl (Update.foldInto schema) site.root) := by
  obtain ⟨site, pipeline, there, resting, rfl, given, laid, thread⟩ :=
    launch_stack holding unused launched
  have foreign : middle.thread.id ∉ pipeline.threads := by
    rw [thread, main]
    exact laid.main_not_mem
  have reflects : (Session.new (.ofStack stages site)).line.Reflects middle pipeline :=
    laid.reflects (by rw [site?, there]; rfl) resting
  refine ⟨site, pipeline, there, resting.hookless, rfl, given, fun events => ⟨?_, ?_⟩, ?_⟩
  · exact (Session.keeps_ofStack stages resting events).partly
  · intro done
    have whole := (Session.keeps_ofStack stages resting events).whole done
    refine ⟨whole, fun others done' same => ?_⟩
    rw [whole, ← same]
    exact (Session.keeps_ofStack [] resting others).whole done'
  · intro acts answers after own ran
    obtain ⟨fine, thread', events, reflects', submitted⟩ :=
      Session.performAll reflects foreign own ran
    rw [← thread'] at foreign
    refine ⟨fine, ⟨events, submitted, ?_⟩, fun answer last flushed => ?_⟩
    · rw [laid.site?_of_reflects reflects']
      rfl
    · obtain ⟨rfl, -, more, later, became, reflects''⟩ := Session.ask reflects' foreign flushed
      have keeps := (Session.keeps_ofStack stages resting events).run more
      rw [became, submitted] at keeps
      refine ⟨rfl, ?_⟩
      rw [laid.site?_of_reflects reflects'', ← List.append_nil (acts.flatMap StackAct.updates)]
      exact congrArg some (keeps.whole (by rw [Session.hasFlushed, reflects''.free]; rfl))

end Deployment

/-! ### In the sample -/

namespace Sample

/-- A buffer, a thread, delays, and once more a thread and a buffer. -/
def stack : List Stage :=
  [.buffering none, .asynchronous, .jitter (.ofMean 50), .asynchronous, .buffering none]

/-- A deployment of a new site. -/
def unlaunched : Deployment :=
  { Deployment.empty with stations := [⟨.new "sample" a schema, none⟩] }

/-- An update, a flush, another update, and a turn for each stage. -/
def stackActs (pipeline : Pipeline) : List StackAct :=
  [.call (.submit first), .call .flush, .call (.submit second)] ++ pipeline.stages.map .turn

/-- Launch the site with the stack, have all that happen, and flush. -/
def stacking : Attempt Unit := do
  Deployment.launch Deployment.caller 0 (some tree) stack
  let own ← Deployment.station 0
  let pipeline ← (Deployment.demand own.outlet : Run Pipeline)
  let _ ← StackAct.performAll pipeline (stackActs pipeline)
  Deployment.caller.ask pipeline .flush

theorem stack_holdsBack : ∀ stage ∈ stack, stage.holdsBack = true := by decide

theorem isOf_stackActs (pipeline : Pipeline) : ∀ act ∈ stackActs pipeline, act.IsOf pipeline := by
  intro act member
  rcases List.mem_append.mp member with call | turn
  · simp only [List.mem_cons, List.not_mem_nil, or_false] at call
    rcases call with rfl | rfl | rfl <;> trivial
  · obtain ⟨stage, own, rfl⟩ := List.mem_map.mp turn
    exact own

theorem updates_stackActs (pipeline : Pipeline) :
    (stackActs pipeline).flatMap StackAct.updates = [first, second] := by
  simp [stackActs, StackAct.updates, StageCall.updates]

theorem stacking_transparent :
    ∃ middle, unlaunched.stations[0]? = some ⟨.new "sample" a schema, none⟩ ∧
      (Deployment.launch Deployment.caller 0 (some tree) stack).run unlaunched =
        some (.ok (), middle) ∧
      ∃ site pipeline answers after last, middle.stations[0]? = some ⟨site, some pipeline⟩ ∧
        StackAct.performAll pipeline (stackActs pipeline) middle = some (answers, after) ∧
        (∀ answer ∈ answers, answer = .ok ()) ∧
        (Deployment.caller.ask pipeline .flush).run after = some (.ok (), last) ∧
        (last.site? 0).map Site.root =
          some ([first, second].foldl (Update.foldInto schema) site.root) := by
  have ends : ((stacking.run unlaunched).map fun ran => ran.1.toBool) = some true := by
    decide +kernel
  obtain ⟨⟨result, last⟩, ran, fine⟩ := Option.map_eq_some_iff.mp ends
  unfold stacking at ran
  obtain ⟨⟨⟩, middle, launched, ran⟩ | ⟨error, -, rfl⟩ := Attempt.bind_cases ran
  case inr => cases fine
  obtain ⟨site, pipeline, there, -, -, -, -, acted⟩ :=
    Deployment.stack_transparent stack_holdsBack rfl rfl launched
  obtain ⟨own, _, looked, ran⟩ := Attempt.lift_bind_cases ran
  obtain ⟨rfl, found⟩ := Deployment.station_cases looked
  cases found.symm.trans there
  obtain ⟨_, _, held, ran⟩ := Attempt.lift_bind_cases ran
  obtain ⟨rfl, same⟩ := Deployment.demand_cases held
  cases same
  obtain ⟨answers, after, performed, flushed⟩ := Attempt.lift_bind_cases ran
  obtain ⟨answered, -, flush⟩ := acted _ _ _ (isOf_stackActs pipeline) performed
  obtain ⟨rfl, root⟩ := flush _ _ flushed
  rw [updates_stackActs] at root
  exact ⟨middle, rfl, launched, site, pipeline, answers, after, last, there, performed, answered,
    flushed, root⟩

end Sample

end StateTree
