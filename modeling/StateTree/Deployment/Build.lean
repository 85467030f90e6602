/-
Module: StateTree.Deployment.Build
Purpose: Building sites and taking them out of use. A site is built with its pipeline; it gets its
  first root from there, and starts to work once that root is known to be valid.
-/
import StateTree.Deployment.Perform
import StateTree.Pipeline.Stage
import StateTree.Schema.Validate

namespace StateTree.Deployment

/-! ## Pipelines -/

/-- The pipeline of a new buffer. -/
def addBuffer (name : Option String) (down : Pipeline) : Run Pipeline := do
  let deployment ← get
  let number := deployment.buffers.length
  let named (name : String) : List (String × Nat) := Keyed.put name number deployment.bufferNames
  set
    { deployment with
      buffers := deployment.buffers ++ [Buffer.empty]
      bufferNames := (name.map named).getD deployment.bufferNames }
  pure (.buffer number down)

/-- The pipeline of a stage that brings a thread with it. -/
def addBackground (pipeline : Pipeline) : Run Pipeline := do
  modify fun deployment =>
    { deployment with background := deployment.background ++ [pipeline] }
  pure pipeline

/-- The pipeline of a new worker. -/
def addWorker (down : Pipeline) : Run Pipeline := do
  let deployment ← get
  set { deployment with workers := deployment.workers ++ [Worker.idle] }
  addBackground (.worker deployment.workers.length down)

/-- The pipeline of a new replica, which has agreed with its log on a manifest. -/
def addReplica (site : Nat) (name : String) (settings : ReplicaSettings) (tap : Tap LogShelf)
    (down : Pipeline) : Attempt Pipeline := do
  let deployment ← getThe Deployment
  let store ← (demand (deployment.logs.named.lookup name) : Run Nat)
  let number := deployment.replicas.length
  let state := Replica.new site store settings tap
  set { deployment with replicas := deployment.replicas ++ [state] }
  consulted number settings.negotiate
  addBackground (.replica number down)

mutual

/-- Build a stage of a site in front of what is below. -/
def assemble (next : Caller) (site : Nat) : Stage → Pipeline → Attempt Pipeline
  | .direct, down => pure down
  | .buffering name, down => addBuffer name down
  | .asynchronous, down => addWorker down
  | .jitter config, down => pure (.jitter config down)
  | .readOnly, down => pure (.readOnly down)
  | .replicaSet name, down => do
      changeSet name (·.join ⟨site, down⟩)
      pure (.replicaSet name site down)
  | .forwarding branches, down => do
      let downs ← assembleAll next site branches down
      pure (.broadcast downs)
  | .recorder terminal, _ => pure (.recorder terminal)
  | .trace tag, down => do
      let own ← station site
      modifyThe Deployment fun deployment =>
        { deployment with trace := deployment.trace ++ [s!"{own.site.name} {tag}"] }
      pure down
  | .refuse reason, _ => throw (.unsupportedOperation (.stated reason))
  | .eager draft, down => do
      let deployment ← getThe Deployment
      next.submit down (draft.capture deployment.thread.scopes.current)
      pure down
  | .log name settings tap, down => addReplica site name settings tap down

/-- Build a stack of a site in front of what is below, the innermost stage first. -/
def assembleStack (next : Caller) (site : Nat) : List Stage → Pipeline → Attempt Pipeline
  | [], down => pure down
  | stage :: rest, down => do
      let inner ← assembleStack next site rest down
      assemble next site stage inner

/-- Build several stacks in front of the same. -/
def assembleAll (next : Caller) (site : Nat) :
    List (List Stage) → Pipeline → Attempt (List Pipeline)
  | [], _ => pure []
  | stack :: rest, down => do
      let first ← assembleStack next site stack down
      let others ← assembleAll next site rest down
      pure (first :: others)

end

/-! ## Sites -/

/-- End the thread of a stage. -/
def stopThread : ThreadId → Run Unit
  | .main => pure ()
  | .worker number => do
      let state ← worker number
      putWorker number state.close
  | .subscription number => changeReplica number Replica.stop

/-- End the threads of the stages that were built after the first `count`, apart from those that a
member of a set goes on to use. -/
def abandon (count : Nat) : Run Unit := do
  let deployment ← get
  let kept := deployment.sets.flatMap fun entry => entry.2.downs.flatMap Pipeline.threads
  let built := (deployment.background.drop count).filterMap Pipeline.thread?
  (built.filter fun id => !kept.contains id).forM stopThread

/-- A new site, which does not work yet, and its number. -/
def addSite (name : String) (schema : Schema) : Run Nat := do
  let uuid ← mint
  let deployment ← get
  let own : Station := ⟨.new name (.unique "site" uuid) schema, none⟩
  set { deployment with stations := deployment.stations ++ [own] }
  pure deployment.stations.length

/-- Build the pipeline of a new site and start the site from the root that the pipeline supplies. -/
def launch (next : Caller) (number : Nat) (standard : Option Node) (stack : List Stage) :
    Attempt Unit := do
  let pipeline ← assembleStack next number stack (.site number standard)
  putOutlet number (some pipeline)
  let supplied ← next.initialRoot pipeline
  let own ← station number
  let root := own.site.schema.polyfill supplied
  match own.site.schema.validate root with
  | .ok () => changeSite next number (·.start root)
  | .error error => throw (.tree error)

/-- Take a site out of use. -/
def discard (next : Caller) (key : String) : Run Bool := do
  let deployment ← get
  match deployment.siteNames.lookup key with
  | none => pure false
  | some number => do
      set { deployment with siteNames := Keyed.drop key deployment.siteNames }
      let own ← station number
      match own.outlet with
      | some pipeline => next.close pipeline
      | none => pure ()
      putOutlet number none
      pure true

/-- Build a site under a key, in place of one that has the key. A site that cannot be built has no
key; what its stages did to others in the meantime stays. -/
def build (next : Caller) (key name : String) (schema : Schema) (standard : Option Node)
    (stack : List Stage) : Attempt Unit := do
  let _ ← discard next key
  let before ← getThe Deployment
  let number ← addSite name schema
  let launched ← outcome (launch next number standard stack)
  match launched with
  | .ok () =>
      modifyThe Deployment fun deployment =>
        { deployment with siteNames := Keyed.put key number deployment.siteNames }
  | .error error => do
      putOutlet number none
      abandon before.background.length
      throw error

/-- Register a hook of a site. -/
def addHook (next : Caller) (number : Nat) (priority : Int) (plan : HookPlan) : Run Unit := do
  let deployment ← get
  set { deployment with plans := deployment.plans ++ [plan] }
  changeSite next number
    (·.register plan.name plan.scope.accessor priority deployment.plans.length)

end StateTree.Deployment
