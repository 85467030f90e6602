/-
Module: StateTree.Proofs.Restoring
Purpose: What a call leaves of the thread that makes it. A call may drain sites and run hooks, which
  pin roots to the thread and open scopes on it, and it may have other threads work. When it has
  returned, the thread has the scopes that it had before, and the same roots are pinned to it. So
  whatever calls the hooks of an update make, each of them begins under the attributes of that
  update; and who reads in a context reads the same before and after any call.
-/
import StateTree.Deployment.Reading
import StateTree.Proofs.FirstRoots
import StateTree.Proofs.Isolation

namespace StateTree

variable {α β : Type}

/-! ### Threads that go on as they were -/

/-- To leave a context that was opened on a root of its own pins again what was pinned before. -/
theorem Bindings.root?_leave_replace {bindings later : Bindings} {number : Nat} {root : Node}
    (same : ∀ site, later.root? site = (bindings.replace number root).2.root? site) (site : Nat) :
    (later.leave (bindings.replace number root).1).root? site = bindings.root? site := by
  simp only [replace, leave] at same ⊢
  by_cases own : site = number
  · subst own
    cases bindings.root? site with
    | none => exact later.root?_unbind_self site
    | some held => exact later.root?_bind_self site held
  · have others := (same site).trans (bindings.root?_bind_of_ne own root)
    cases bindings.root? number with
    | none => exact (later.root?_unbind_of_ne own).trans others
    | some held => exact (later.root?_bind_of_ne own held).trans others

/-- The same goes for one that was opened on what is pinned, or else on another root. -/
theorem Bindings.root?_leave_enter {bindings later : Bindings} {number : Nat} {current : Node}
    (same : ∀ site, later.root? site = (bindings.enter number current).2.root? site)
    (site : Nat) :
    (later.leave (bindings.enter number current).1).root? site = bindings.root? site := by
  cases pinned : bindings.root? number with
  | some root =>
      rw [bindings.enter_of_some pinned] at same ⊢
      exact same site
  | none =>
      rw [bindings.enter_of_none pinned] at same ⊢
      by_cases own : site = number
      · rw [own, pinned]
        exact later.root?_unbind_self number
      · exact (later.root?_unbind_of_ne own).trans
          ((same site).trans (bindings.root?_bind_of_ne own current))

/-- The root of a context is pinned when it is opened. -/
theorem Bindings.root?_enter (bindings : Bindings) (number : Nat) (current : Node) :
    (bindings.enter number current).2.root? number =
      some (bindings.enter number current).1.root := by
  cases pinned : bindings.root? number with
  | some root =>
      rw [bindings.enter_of_some pinned]
      exact pinned
  | none =>
      rw [bindings.enter_of_none pinned]
      exact bindings.root?_bind_self number current

namespace Deployment

/-- The thread that is running goes on as it was, in the contexts that were open. -/
structure Resumes (before after : Deployment) : Prop where
  id : after.thread.id = before.thread.id
  scopes : after.thread.scopes = before.thread.scopes
  pinned : ∀ site, after.thread.bindings.root? site = before.thread.bindings.root? site
  contexts : after.contexts = before.contexts

namespace Resumes

variable {first second : Deployment}

instance isPreorder : IsPreorder Deployment Resumes where
  refl _ := ⟨rfl, rfl, fun _ => rfl, rfl⟩
  trans _ _ _ early late :=
    { id := late.id.trans early.id
      scopes := late.scopes.trans early.scopes
      pinned site := (late.pinned site).trans (early.pinned site)
      contexts := late.contexts.trans early.contexts }

/-- What belongs to the thread was not touched. -/
theorem of_eq (thread : second.thread = first.thread)
    (contexts : second.contexts = first.contexts) : first.Resumes second where
  id := congrArg Thread.id thread
  scopes := congrArg Thread.scopes thread
  pinned site := congrArg (fun thread => thread.bindings.root? site) thread
  contexts := contexts

end Resumes

end Deployment

/-- Whatever call is so made, the thread goes on as it was. -/
def Caller.Restores (next : Caller) : Prop :=
  ∀ {α : Type} (call : Call α), (next.perform call).Keeps Deployment.Resumes

namespace Caller.Restores

variable {next : Caller} (restores : next.Restores) (pipeline : Pipeline)

include restores

/-- The calls by name. -/
theorem initialRoot : (next.initialRoot pipeline).Keeps Deployment.Resumes :=
  restores (.initialRoot pipeline)

theorem submit (update : Update) : (next.submit pipeline update).Keeps Deployment.Resumes :=
  restores (.submit pipeline update)

theorem flush : (next.flush pipeline).Keeps Deployment.Resumes := restores (.flush pipeline)

theorem close : (next.close pipeline).Keeps Deployment.Resumes := restores (.close pipeline)

theorem offer (update : Update) : (next.offer pipeline update).Keeps Deployment.Resumes :=
  .bind (restores (.submit pipeline update)) fun _ => .pure ()

end Caller.Restores

namespace Deployment

variable {number : Nat}

/-! ### Parts of a deployment -/

/-- What is put in its place, here and below, does not belong to the thread. -/
theorem restores_putSite (site : Site Nat) : (putSite number site).Keeps Resumes :=
  .modify fun _ => .of_eq rfl rfl

theorem restores_putBuffer (held : Buffer) : (putBuffer number held).Keeps Resumes :=
  .modify fun _ => .of_eq rfl rfl

theorem restores_putWorker (state : Worker) : (putWorker number state).Keeps Resumes :=
  .modify fun _ => .of_eq rfl rfl

theorem restores_changeReplica (change : Replica → Replica) :
    (changeReplica number change).Keeps Resumes :=
  .modify fun _ => .of_eq rfl rfl

theorem restores_putEvent (event : HookEvent) : (putEvent event).Keeps Resumes :=
  .modify fun _ => .of_eq rfl rfl

theorem restores_changeSet (name : String) (change : ReplicaSet → ReplicaSet) :
    (changeSet name change).Keeps Resumes :=
  .modify fun _ => .of_eq rfl rfl

theorem restores_rest (time : Nat) : (rest time).Keeps Resumes :=
  .modify fun _ => .of_eq rfl rfl

theorem restores_setClock (moment : Nat) : (setClock moment).Keeps Resumes :=
  .modify fun _ => .of_eq rfl rfl

theorem restores_record (terminal : Recorder) (call : RecordedCall) :
    (record terminal call).Keeps Resumes :=
  .modify fun _ => .of_eq rfl rfl

/-- Which sites a thread drains matters only to those who wait for them. -/
theorem restores_draining (change : List Nat → List Nat) :
    (changeThread fun thread =>
      { thread with draining := change thread.draining }).Keeps Resumes := by
  intro before value after ran
  cases ran
  exact ⟨rfl, rfl, fun _ => rfl, rfl⟩

theorem restores_mint : mint.Keeps Resumes := by
  intro before value after ran
  cases ran
  exact .of_eq rfl rfl

/-- To take work is to look a site up and to put it back. -/
theorem restores_takeWork (take : Site Nat → Option (WorkItem Nat) × Site Nat) :
    (takeWork number take).Keeps Resumes :=
  .bind keeps_station fun _ => .bind (restores_putSite _) fun _ => .pure _

theorem restores_putForwarder (forwarder : Option ThreadId) :
    (putForwarder number forwarder).Keeps Resumes :=
  .bind keeps_buffer fun _ => restores_putBuffer _

theorem restores_noteMove (move : Replica → Nat → Replica) : (noteMove number move).Keeps Resumes :=
  .bind keeps_get fun _ => restores_changeReplica _

/-- A replica consults its log on its own account. -/
theorem restores_consult (program : LogProgram α) : (consult number program).Keeps Resumes := by
  refine .bind keeps_replica fun state => .bind (keeps_isOn _) fun isFollowing => .get ?_
  intro before value after ran
  cases ran
  exact .of_eq rfl rfl

theorem restores_consulted (program : LogProgram α) : (consulted number program).Keeps Resumes :=
  Run.Keeps.bind (restores_consult program) fun _ => .pure _

/-- A replica keeps to itself what it does for a first root. -/
theorem restores_replicas : KeptByReplicas Resumes where
  loadState _ _ := restores_consulted _
  storeFirst _ _ _ := restores_consulted _
  load _ _ _ := restores_consulted _
  startAt _ _ := restores_changeReplica _

/-- What is done on another thread leaves the thread that is running as it is. -/
theorem restores_onThread {id : ThreadId} {run : Run α} (restores : run.Keeps Resumes) :
    (onThread id run).Keeps Resumes := by
  intro before value after ran
  obtain ⟨middle, inside, rfl⟩ := onThread_cases ran
  exact .of_eq rfl (restores _ _ _ inside).contexts

/-! ### Scopes and contexts around a run -/

/-- The scope of an update is left when what is done in it is done. -/
theorem restores_underContextOf (item : WorkItem Nat) {run : Run Unit}
    (restores : run.Keeps Resumes) :
    (underContextOf item run).Keeps Resumes := by
  cases item with
  | introduce hook => exact restores
  | apply update =>
      intro before value after ran
      obtain ⟨⟨⟩, entered, enters, ran⟩ := Run.bind_cases ran
      cases enters
      obtain ⟨⟨⟩, middle, inside, ran⟩ := Run.bind_cases ran
      have resumes := restores _ _ _ inside
      cases ran
      exact ⟨resumes.id, congrArg DiagnosticScopes.leave resumes.scopes, resumes.pinned,
        resumes.contexts⟩

/-- A root is pinned while a hook runs, and let go of when the hook returns. -/
theorem restores_runHook {next : Caller} {outlet : Pipeline} {call : HookCall Nat}
    (restores : (fire next outlet call.hook.payload call.path).Keeps Resumes) :
    (runHook next number outlet call).Keeps Resumes := by
  refine .get fun before value after ran => ?_
  obtain ⟨⟨⟩, pinned, pins, ran⟩ := Run.bind_cases ran
  cases pins
  obtain ⟨⟨⟩, middle, inside, ran⟩ := Run.bind_cases ran
  have resumes := restores _ _ _ inside
  cases ran
  exact ⟨resumes.id, resumes.scopes, Bindings.root?_leave_replace resumes.pinned,
    resumes.contexts⟩

/-- Whoever opens a context, makes calls in it and leaves it, finds the thread as it was. -/
theorem restores_inContext (name : String) {run : Run α} (restores : run.Keeps Resumes) :
    (do
      let _ ← openContext name number
      let value ← run
      let _ ← closeContext
      pure value : Run α).Keeps Resumes := by
  intro before value after ran
  obtain ⟨root, opened, opens, ran⟩ := Run.bind_cases ran
  obtain ⟨own, _, looked, opens⟩ := Run.bind_cases opens
  obtain ⟨rfl, -⟩ := station_cases looked
  cases opens
  obtain ⟨value, middle, inside, ran⟩ := Run.bind_cases ran
  obtain ⟨id, scopes, pinned, contexts⟩ := restores _ _ _ inside
  obtain ⟨left, closed, closes, ran⟩ := Run.bind_cases ran
  cases ran
  obtain ⟨_, _, got, closes⟩ := Run.bind_cases closes
  cases got
  rw [contexts] at closes
  cases closes
  exact ⟨id, scopes, Bindings.root?_leave_enter pinned, rfl⟩

/-- The same goes for an attribute that is set for the calls. -/
theorem restores_underAttribute (key value : String) {run : Run α} (restores : run.Keeps Resumes) :
    (do
      changeScopes (·.enterWith key value)
      let result ← run
      changeScopes (·.leave)
      pure result : Run α).Keeps Resumes := by
  intro before result after ran
  obtain ⟨⟨⟩, _, enters, ran⟩ := Run.bind_cases ran
  cases enters
  obtain ⟨result, middle, inside, ran⟩ := Run.bind_cases ran
  obtain ⟨id, scopes, pinned, contexts⟩ := restores _ _ _ inside
  cases ran
  exact ⟨id, congrArg DiagnosticScopes.leave scopes, pinned, contexts⟩

/-- In a context the root that was told when it was opened is what calls leave pinned. -/
theorem pinned_inContext {before opened after : Deployment} {name : String} {root : Node}
    {run : Run α} {value : α} (opens : openContext name number before = some (root, opened))
    (restores : run.Keeps Resumes) (ran : run opened = some (value, after)) :
    after.thread.bindings.root? number = some root := by
  rw [(restores _ _ _ ran).pinned]
  obtain ⟨own, _, looked, opens⟩ := Run.bind_cases opens
  obtain ⟨rfl, -⟩ := station_cases looked
  cases opens
  exact before.thread.bindings.root?_enter number own.site.root

/-! ### What the stages do -/

section Stages

variable {next : Caller} (restores : next.Restores)

include restores

/-- A change to a site may have it drained, which is a call. -/
theorem restores_changeSite (change : Site Nat → Bool × Site Nat) :
    (changeSite next number change).Keeps Resumes := by
  refine .bind keeps_station fun own => .bind (restores_putSite _) fun _ => ?_
  split
  · exact restores _
  · exact .pure ()

/-- The actions of a hook submit and flush, which are calls, or record what came of it; by induction
on those that may be due. -/
theorem restores_takeActions {outlet : Pipeline} {plan : Nat} {path : Path} (indices : List Nat) :
    (takeActions next outlet plan path indices).Keeps Resumes := by
  induction indices with
  | nil => exact .pure ()
  | cons index rest ih =>
      refine .get fun before value after ran => ?_
      obtain ⟨current, _, looked, ran⟩ := Run.bind_cases ran
      obtain ⟨rfl, -⟩ := demand_cases looked
      cases due : current.due? index with
      | none =>
          rw [due] at ran
          exact ih _ _ _ ran
      | some action =>
          rw [due] at ran
          obtain ⟨⟨⟩, spent, spends, ran⟩ := Run.bind_cases ran
          have unspent : before.Resumes spent := by
            cases spends
            exact .of_eq rfl rfl
          refine trans_of Resumes unspent ?_
          cases action with
          | submit draft below =>
              exact Run.Keeps.bind keeps_hookUpdate (fun update => .bind (restores _)
                fun result => .bind (restores_putEvent _) fun _ => ih) _ _ _ ran
          | flush =>
              exact Run.Keeps.bind (restores _) (fun result => .bind (restores_putEvent _)
                fun _ => ih) _ _ _ ran
          | abort => exact Run.Keeps.pure () _ _ _ ran

theorem restores_fire {outlet : Pipeline} {plan : Nat} {path : Path} :
    (fire next outlet plan path).Keeps Resumes := by
  refine .bind keeps_get fun deployment => .bind (keeps_demand _) fun current => ?_
  split
  · exact .pure ()
  · exact .bind (restores_putEvent _) fun _ => restores_takeActions restores _

/-- An item of work is processed under its own scope, with a root pinned for each of its hooks. -/
theorem restores_work (item : WorkItem Nat) : (work next number item).Keeps Resumes := by
  refine .bind keeps_station fun own => .bind (restores_putSite _) fun _ => ?_
  split
  · exact restores_underContextOf item
      (.forM (fun _ => restores_runHook (restores_fire restores)) _)
  · exact .pure ()

/-- Items are worked off one after the other, by induction on how many there may be. -/
theorem restores_workOff (item : Option (WorkItem Nat)) (count : Nat) :
    (workOff next number item count).Keeps Resumes := by
  induction count generalizing item with
  | zero =>
      cases item with
      | none => exact .pure ()
      | some item => exact keeps_demand none
  | succ count ih =>
      cases item with
      | none => exact .pure ()
      | some item =>
          exact .bind (restores_work restores item) fun _ =>
            .bind (restores_takeWork _) fun following => ih following

theorem restores_drain : (drain next number).Keeps Resumes :=
  .bind (restores_draining _) fun _ => .bind (restores_takeWork _) fun item =>
    .bind (restores_workOff restores item endless) fun _ => restores_draining _

/-! #### Buffers and workers -/

/-- What a buffer holds is handed on round after round, until it is found empty. -/
theorem restores_forward (down : Pipeline) (rounds : Nat) :
    (forward next number down rounds).Keeps Resumes := by
  induction rounds with
  | zero => exact .lift (keeps_demand none)
  | succ rounds ih =>
      refine .bind (.lift keeps_buffer) fun held => ?_
      refine .bind (.lift (restores_putBuffer _)) fun _ => ?_
      split
      · exact .pure ()
      · exact .bind (.forM (restores.submit down) _) fun _ => ih

theorem restores_flushBuffer (down : Pipeline) : (flushBuffer next number down).Keeps Resumes := by
  refine .bind (.lift keeps_buffer) fun held => .bind (.lift keeps_get) fun deployment => ?_
  dsimp only
  split
  · exact restores.flush down
  · refine .bind (.lift (restores_putForwarder _)) fun _ => ?_
    refine .bind (.outcome (restores_forward restores down endless)) fun forwarded => ?_
    refine .bind (.lift (restores_putForwarder _)) fun _ => ?_
    split
    · exact restores.flush down
    · exact .throw _

/-- A worker hands on what was queued, one request after the other. -/
theorem restores_serve (down : Pipeline) (count : Nat) :
    (serve next number down count).Keeps Resumes := by
  induction count with
  | zero => exact .pure ()
  | succ count ih =>
      refine .bind keeps_worker fun state => .bind (restores_putWorker _) fun _ => ?_
      dsimp only
      split
      · exact .bind (restores.offer down _) fun _ => ih
      · exact ih

theorem restores_serveAll (down : Pipeline) : (serveAll next number down).Keeps Resumes :=
  .bind keeps_worker fun _ => restores_serve restores down _

theorem restores_flushWorker (down : Pipeline) : (flushWorker next number down).Keeps Resumes := by
  refine .bind (.lift (keeps_isOn _)) fun isOwn => ?_
  split
  · exact restores.flush down
  · refine .bind (.lift keeps_worker) fun state => ?_
    split
    · exact restores_onThread
        (.bind (restores_serveAll restores down) fun _ => restores.flush down)
    · exact .throw _

theorem restores_closeWorker (down : Pipeline) : (closeWorker next number down).Keeps Resumes := by
  refine .bind keeps_worker fun state => .bind (restores_putWorker _) fun _ => ?_
  refine .bind (keeps_isOn _) fun isOwn => ?_
  dsimp only
  split
  · exact restores _
  · exact .bind (restores_onThread (restores_serveAll restores down)) fun _ => restores _

/-! #### Replicas -/

/-- Whatever the thread of a replica does, and whatever that leads to, by induction on the chore. -/
theorem restores_pursue (down : Pipeline) (chore : Chore) :
    (pursue next number down chore).Keeps Resumes := by
  induction chore with
  | rest isRead => exact .pure isRead
  | consult program rest ih => exact .bind (restores_consult program) ih
  | look rest ih => exact .bind keeps_replica ih
  | pass record rest ih =>
      dsimp only [pursue]
      split
      · exact .bind (restores.offer down _) fun _ => ih
      · exact ih
  | advance record rest ih => exact .bind (restores_noteMove _) fun _ => ih
  | takeOver position root rest ih =>
      exact .bind keeps_get fun _ => .bind (restores.offer down _) fun _ =>
        .bind (restores_noteMove _) fun _ => ih
  | compacted rest ih => exact .bind (restores_changeReplica _) fun _ => ih

/-- A replica follows its log on a thread of its own. -/
theorem restores_follow (down : Pipeline) : (follow next number down).Keeps Resumes := by
  refine restores_onThread (.bind keeps_get fun deployment =>
    .bind (restores_changeReplica _) fun _ => .bind ?_ fun isRead =>
      .bind keeps_replica fun state => .bind keeps_get fun later => ?_)
  · exact .bind keeps_replicaSchema fun schema => restores_pursue restores down _
  · split
    · exact restores_rest _
    · split
      · exact restores_rest _
      · exact .pure ()

/-- Who waits for a barrier has the thread of the replica look at the log again and again. -/
theorem restores_awaitBarrier (down : Pipeline) (barrier deadline looks : Nat) :
    (awaitBarrier next number down barrier deadline looks).Keeps Resumes := by
  induction looks with
  | zero => exact keeps_demand none
  | succ looks ih =>
      refine .bind keeps_replica fun state => .bind keeps_get fun deployment => ?_
      split
      · exact .pure ()
      · refine .bind (restores_follow restores down) fun _ =>
          .bind keeps_replica fun later => ?_
        split
        · exact .pure ()
        · exact ih

theorem restores_flushReplica (down : Pipeline) :
    (flushReplica next number down).Keeps Resumes := by
  refine .bind (.lift (keeps_isOn _)) fun isFollowing => ?_
  split
  · exact restores.flush down
  · refine .bind (.lift keeps_replica) fun state => ?_
    refine .bind (.lift restores_mint) fun correlation => ?_
    refine .bind (restores_consulted _) fun barrier => ?_
    refine .bind (.lift keeps_get) fun deployment => ?_
    refine .bind (.lift (restores_awaitBarrier restores down barrier _ endless)) fun _ => ?_
    refine .bind (.lift keeps_replica) fun later => ?_
    dsimp only
    split
    · exact .throw _
    · split
      · exact .bind (.lift (restores_setClock _)) fun _ => restores.flush down
      · exact .bind (.lift (restores_setClock _)) fun _ => .throw _

theorem restores_closeReplica (down : Pipeline) :
    (closeReplica next number down).Keeps Resumes := by
  refine .bind keeps_replica fun state => ?_
  split
  · exact .pure ()
  · exact .bind (restores_changeReplica _) fun _ => restores _

/-! #### Sets and broadcasts -/

theorem restores_submitToSet (name : String) (update : Update) :
    (submitToSet next name update).Keeps Resumes := by
  refine .bind (.lift keeps_get) fun deployment => ?_
  dsimp only
  split
  · exact .throw _
  · exact .forM (fun down => restores.submit down update) _

/-! #### Calls -/

theorem restores_submit (pipeline : Pipeline) (update : Update) :
    (submit next pipeline update).Keeps Resumes := by
  cases pipeline with
  | site number standard => exact .lift (restores_changeSite restores _)
  | recorder terminal =>
      dsimp only [submit]
      split
      · exact .throw _
      · exact .lift (restores_record _ _)
  | buffer number down =>
      exact .bind (.lift keeps_buffer) fun held => .lift (restores_putBuffer _)
  | worker number down =>
      refine .bind (.lift keeps_worker) fun state => ?_
      split
      · exact .lift (restores_putWorker _)
      · exact .throw _
  | jitter config down => exact restores.submit down update
  | readOnly down => exact .throw _
  | replicaSet name site down => exact restores_submitToSet restores name update
  | broadcast downs => exact .forM (fun down => restores.submit down update) downs
  | replica number down =>
      refine .bind (.lift keeps_replica) fun state => ?_
      split
      · exact .throw _
      · exact .bind (.lift restores_mint) fun _ => .bind (restores_consulted _) fun _ => .pure ()

theorem restores_flush (pipeline : Pipeline) : (flush next pipeline).Keeps Resumes := by
  cases pipeline with
  | site number standard =>
      exact .lift (.look fun _ _ _ ran => (awaitIdle_cases ran).1)
  | recorder terminal =>
      dsimp only [flush]
      split
      · exact .throw _
      · exact .lift (restores_record _ _)
  | buffer number down => exact restores_flushBuffer restores down
  | worker number down => exact restores_flushWorker restores down
  | replicaSet name site down =>
      exact .bind (.lift keeps_get) fun _ => .forM restores.flush _
  | replica number down => exact restores_flushReplica restores down
  | broadcast downs => exact .forM restores.flush downs
  | jitter config down | readOnly down => exact restores.flush down

theorem restores_close (pipeline : Pipeline) : (close next pipeline).Keeps Resumes := by
  cases pipeline with
  | site number standard => exact .pure ()
  | recorder terminal => exact restores_record _ _
  | worker number down => exact restores_closeWorker restores down
  | replicaSet name site down => exact .bind (restores_changeSet _ _) fun _ => restores _
  | replica number down => exact restores_closeReplica restores down
  | broadcast downs => exact .forM restores.close downs
  | buffer number down | jitter config down | readOnly down => exact restores.close down

/-- Whatever the call, the thread goes on as it was if it does after the calls that this one leads
to. -/
theorem restores_answer (call : Call α) : (answer next call).Keeps Resumes := by
  cases call with
  | initialRoot pipeline =>
      exact keeps_initialRoot restores_replicas restores.initialRoot pipeline
  | submit pipeline update => exact restores_submit restores pipeline update
  | flush pipeline => exact restores_flush restores pipeline
  | close pipeline => exact restores_close restores pipeline
  | drain number => exact restores_drain restores

end Stages

/-! ### Calls of a deployment -/

/-- When a call returns, the thread that has made it has the scopes that it had before, the same
roots are pinned to it, and the same contexts are open. By induction on how deep calls are
nested. -/
theorem restores_caller : caller.Restores := by
  have within (depth : Nat) : Caller.Restores ⟨fun call => performWithin depth call⟩ := by
    induction depth with
    | zero => exact fun _ => keeps_demand none
    | succ depth ih => exact fun call => restores_answer ih call
  exact fun {_} call => within depthLimit call

/-- An update has come to a site that is now as given, and its scope is open. -/
def begun (deployment : Deployment) (number : Nat) (site : Site Nat) (update : Update) :
    Deployment :=
  { deployment with
    stations := deployment.stations.modify number fun own => { own with site := site }
    thread :=
      { deployment.thread with scopes := deployment.thread.scopes.enter update.diagnostics } }

/-- The calls of the hooks that an update leads to begin under the attributes of that update, with
what was pinned before the first of them, whatever the hooks before have done; and after the last
one the thread goes on as it was. -/
theorem hooks_begin_alike {before after : Deployment} {update : Update} {outlet : Pipeline}
    {own : Station} (there : before.stations[number]? = some own) (used : own.outlet = some outlet)
    (ran : work caller number (.apply update) before = some ((), after)) :
    let (site, calls) := own.site.process (.apply update)
    before.Resumes after ∧
      ∀ front call rest, calls = front ++ call :: rest → ∃ middle later,
        front.forM (runHook caller number outlet) (before.begun number site update) =
            some ((), middle) ∧
          runHook caller number outlet call middle = some ((), later) ∧
          middle.thread.scopes.current = update.diagnostics ∧
          ∀ site, middle.thread.bindings.root? site = before.thread.bindings.root? site := by
  have resumes := restores_work restores_caller _ _ _ _ ran
  obtain ⟨_, _, looked, ran⟩ := Run.bind_cases ran
  obtain ⟨rfl, found⟩ := station_cases looked
  cases there.symm.trans found
  rcases processed : own.site.process (.apply update) with ⟨site, calls⟩
  refine ⟨resumes, fun front call rest same => ?_⟩
  subst same
  rw [processed] at ran
  obtain ⟨⟨⟩, _, put, ran⟩ := Run.bind_cases ran
  cases put
  rw [used] at ran
  obtain ⟨⟨⟩, _, enters, ran⟩ := Run.bind_cases ran
  cases enters
  obtain ⟨⟨⟩, _, made, -⟩ := Run.bind_cases ran
  obtain ⟨middle, later, first, here, resumes⟩ := Run.Keeps.forM_begins
    (fun call => restores_runHook (restores_fire restores_caller)) made
  exact ⟨middle, later, first, here, congrArg DiagnosticScopes.current resumes.scopes,
    resumes.pinned⟩

end Deployment

end StateTree
