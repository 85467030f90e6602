/-
Module: StateTree.Proofs.FailedBuilds
Purpose: What a build that fails leaves behind. The stages of the site are built one after the
  other, and the first root is asked for, before it is known whether the site can be built; what that
  does to sets and logs is not undone.
-/
import StateTree.Deployment.Build
import StateTree.Proofs.Barriers
import StateTree.Proofs.Containers
import StateTree.Proofs.FirstRoots
import StateTree.Proofs.Startups
import StateTree.Proofs.Typing

namespace StateTree

variable {α β : Type}

/-! ### Consulting a log -/

namespace Deployment

/-- Nobody comes between the replicas and their logs. -/
def Undisturbed (deployment : Deployment) : Prop :=
  ∀ state ∈ deployment.replicas, state.tap.intrusions = []

variable {next : Caller} {number : Nat} {before after : Deployment}

/-- What a program ensures on a log comes about when a replica consults the log; otherwise only the
replica and the clock are others than before. -/
theorem consult_alone {program : LogProgram α} {post : Except LogError α → LogShelf → Prop}
    {result : Except LogError α} (undisturbed : before.Undisturbed)
    (alone : ∀ store, program.Alone store post before.logs)
    (ran : consult number program before = some (result, after)) :
    post result after.logs ∧ after.Undisturbed := by
  obtain ⟨state, _, looked, ran⟩ := Run.bind_cases ran
  obtain ⟨rfl, there⟩ := replica_cases looked
  obtain ⟨isFollowing, _, asked, ran⟩ := Run.bind_cases ran
  cases asked
  obtain ⟨_, _, got, ran⟩ := Run.bind_cases ran
  cases got
  cases ran
  have apart := undisturbed state (List.mem_of_getElem? there)
  obtain ⟨ensured, apart'⟩ := (alone state.store).consult apart
    (state.isPaused && before.thread.id == .subscription number) before.clock
  refine ⟨ensured, fun other member => ?_⟩
  rcases List.mem_or_eq_of_mem_set member with old | rfl
  · exact undisturbed other old
  · exact apart'

theorem consult_spares {program : LogProgram α} {result : Except LogError α}
    (ran : consult number program before = some (result, after)) :
    after.stations = before.stations ∧ after.sets = before.sets := by
  obtain ⟨state, _, looked, ran⟩ := Run.bind_cases ran
  obtain ⟨rfl, there⟩ := replica_cases looked
  obtain ⟨isFollowing, _, asked, ran⟩ := Run.bind_cases ran
  cases asked
  obtain ⟨_, _, got, ran⟩ := Run.bind_cases ran
  cases got
  cases ran
  exact ⟨rfl, rfl⟩

end Deployment

/-! ### First roots -/

namespace Deployment

/-- What happens to a deployment while a site gets its first root. -/
structure Supplies (before after : Deployment) : Prop where
  stations : after.stations = before.stations
  sets : after.sets = before.sets
  undisturbed : before.Undisturbed → after.Undisturbed
  logs : before.Undisturbed → before.logs.Begins after.logs

instance Supplies.isPreorder : IsPreorder Deployment Supplies where
  refl _ := ⟨rfl, rfl, id, fun _ => .refl _⟩
  trans _ _ _ early late :=
    { stations := late.stations.trans early.stations
      sets := late.sets.trans early.sets
      undisturbed apart := late.undisturbed (early.undisturbed apart)
      logs apart := (early.logs apart).trans (late.logs (early.undisturbed apart)) }

/-- A program that stores a first snapshot at most. -/
theorem supplies_consulted {program : LogProgram α}
    (alone : ∀ store shelf, program.Alone store (fun _ later => shelf.Begins later) shelf) :
    (consulted number program).Keeps Supplies := by
  intro before result after ran
  obtain ⟨answer, ran, -⟩ := consulted_cases ran
  obtain ⟨stations, sets⟩ := consult_spares ran
  have ensured (apart : before.Undisturbed) := consult_alone apart (alone · before.logs) ran
  exact ⟨stations, sets, fun apart => (ensured apart).2, fun apart => (ensured apart).1⟩

theorem supplies_startAt (position : Nat) :
    (changeReplica number (·.startAt position)).Keeps Supplies := by
  intro before value after ran
  cases ran
  refine ⟨rfl, rfl, fun apart state member => ?_, fun _ => .refl _⟩
  obtain ⟨index, there⟩ := List.getElem?_of_mem member
  rw [List.getElem?_modify] at there
  obtain ⟨old, found, rfl⟩ := Option.map_eq_some_iff.mp there
  have unchanged := apart old (List.mem_of_getElem? found)
  split <;> exact unchanged

/-- A replica stores the first snapshot of its log at most, and nobody comes to stand between
them. -/
theorem supplies_replicas : KeptByReplicas Supplies where
  loadState _ _ := supplies_consulted fun _ _ => ReplicaSettings.loadState_alone.weaken
    fun _ _ same => same.begins
  storeFirst _ _ _ := supplies_consulted fun _ _ => ReplicaSettings.storeFirst_alone
  load _ schema document := supplies_consulted fun _ shelf => by
    unfold StateDocument.load
    split <;> exact .refl shelf
  startAt _ := supplies_startAt

/-- Whatever stands in front of a site, to get the first root does not change sites, sets or
records; it may store first snapshots. -/
theorem supplies_caller (pipeline : Pipeline) : (caller.initialRoot pipeline).Keeps Supplies :=
  keeps_caller_initialRoot supplies_replicas pipeline

end Deployment

/-! ### Stages one after the other -/

namespace Stage

mutual

/-- A stage and those inside it, in the order in which they are built. -/
def inOrder : Stage → List Stage
  | .forwarding branches => branchesInOrder branches ++ [.forwarding branches]
  | stage => [stage]

/-- The stages of a stack. -/
def stackInOrder : List Stage → List Stage
  | [] => []
  | stage :: rest => stackInOrder rest ++ stage.inOrder

/-- The stages of several stacks. -/
def branchesInOrder : List (List Stage) → List Stage
  | [] => []
  | stack :: rest => stackInOrder stack ++ branchesInOrder rest

end

/-- Whether a stage submits nothing while it is built, and lets nobody come between it and its
log. -/
def IsPlain : Stage → Prop
  | .eager _ => False
  | .log _ _ tap => tap.intrusions = []
  | _ => True

/-- Whether a stage joins a set. -/
def joins (name : String) : Stage → Bool
  | .replicaSet other => other == name
  | _ => false

/-- The format that a stage agrees on with its log. -/
def format? : Stage → Option StateFormat
  | .log _ settings _ => some settings.preferredFormat
  | _ => none

/-- Whether there are cases in which a stage cannot be built. -/
def canFail : Stage → Bool
  | .refuse _ => true
  | .log _ _ _ => true
  | _ => false

end Stage

namespace Deployment

/-- What happens to a deployment while such stages of a site are built, of which the last one may
have failed. -/
structure Assembles (site : Nat) (tried : List Stage) (before after : Deployment) : Prop where
  stations : after.stations = before.stations
  members : ∀ name, ∃ joined, (after.set? name).members = (before.set? name).members ++ joined ∧
    joined.map Member.site = List.replicate (tried.countP (Stage.joins name)) site
  undisturbed : before.Undisturbed → after.Undisturbed
  logs : before.Undisturbed →
    before.logs.Rewrites (Recast · (tried.filterMap Stage.format?)) after.logs

theorem Assembles.nil (site : Nat) (deployment : Deployment) :
    Assembles site [] deployment deployment :=
  ⟨rfl, fun _ => ⟨[], (List.append_nil _).symm, rfl⟩, id, fun _ =>
    (LogShelf.Unchanged.refl _).rewrites fun _ _ => .done⟩

theorem Assembles.append {site : Nat} {early late : List Stage} {first second third : Deployment}
    (before : Assembles site early first second) (after : Assembles site late second third) :
    Assembles site (early ++ late) first third where
  stations := after.stations.trans before.stations
  members name := by
    obtain ⟨joined, members, sites⟩ := before.members name
    obtain ⟨more, members', sites'⟩ := after.members name
    refine ⟨joined ++ more, by rw [members', members, List.append_assoc], ?_⟩
    rw [List.map_append, sites, sites', List.countP_append,
      List.replicate_append_replicate]
  undisturbed apart := after.undisturbed (before.undisturbed apart)
  logs apart := by
    have early := before.logs apart
    have late := after.logs (before.undisturbed apart)
    refine ⟨early.records.trans late.records, fun number => ?_⟩
    rw [List.filterMap_append]
    have changed := late.snapshots number
    rw [early.records.isOnDisk number] at changed
    exact (early.snapshots number).append changed

/-- The building of stages of a site came so far: all of them are built, or the last that was tried
could not be. -/
def Tries (site : Nat) (stages : List Stage) (result : Except PipelineError α)
    (before after : Deployment) : Prop :=
  ∃ tried rest, stages = tried ++ rest ∧ Assembles site tried before after ∧
    (match result with
      | .ok _ => rest = []
      | .error _ => ∃ front stage, tried = front ++ [stage] ∧ stage.canFail = true)

end Deployment

/-- An attempt builds such stages of a site, in this order. -/
def Attempt.Builds (site : Nat) (stages : List Stage) (attempt : Attempt α) : Prop :=
  ∀ before result after, attempt.run before = some (result, after) →
    Deployment.Tries site stages result before after

namespace Attempt.Builds

variable {site : Nat} {early late : List Stage} {stage : Stage}

theorem pure (value : α) : (Pure.pure value : Attempt α).Builds site [] := by
  intro before result after ran
  cases ran
  exact ⟨[], [], rfl, .nil site before, rfl⟩

theorem bind {first : Attempt α} {next : α → Attempt β} (before : first.Builds site early)
    (after : ∀ value, (next value).Builds site late) :
    (first >>= next).Builds site (early ++ late) := by
  intro start result last ran
  obtain ⟨value, middle, here, ran⟩ | ⟨error, failed, rfl⟩ := Attempt.bind_cases ran
  · obtain ⟨tried, _, rfl, assembles, rfl⟩ := before _ _ _ here
    obtain ⟨tried', rest, rfl, assembles', ends⟩ := after value _ _ _ ran
    rw [List.append_nil]
    refine ⟨tried ++ tried', rest, (List.append_assoc _ _ _).symm, assembles.append assembles', ?_⟩
    cases result with
    | ok value => exact ends
    | error error =>
        obtain ⟨front, stage, rfl, can⟩ := ends
        exact ⟨tried ++ front, stage, (List.append_assoc _ _ _).symm, can⟩
  · obtain ⟨tried, rest, rfl, assembles, ends⟩ := before _ _ _ failed
    exact ⟨tried, rest ++ late, List.append_assoc _ _ _, assembles, ends⟩

/-- A stage that has nothing to do with sets and logs. -/
theorem quiet {attempt : Attempt α} (joins : ∀ name, stage.joins name = false)
    (acts : ∀ before result after, attempt.run before = some (result, after) →
      (result.toBool = true ∨ stage.canFail = true) ∧ after.stations = before.stations ∧
        after.sets = before.sets ∧ after.replicas = before.replicas ∧ after.logs = before.logs) :
    attempt.Builds site [stage] := by
  intro before result after ran
  obtain ⟨ends, stations, sets, replicas, logs⟩ := acts _ _ _ ran
  refine ⟨[stage], [], rfl, ⟨stations, fun name => ⟨[], ?_, ?_⟩, fun apart => ?_, fun _ => ?_⟩, ?_⟩
  · rw [Deployment.set?, sets, List.append_nil]
    rfl
  · simp [joins name]
  · rwa [Deployment.Undisturbed, replicas]
  · rw [logs]
    exact (LogShelf.Unchanged.refl _).rewrites fun _ _ => .refl _ _
  · cases result with
    | ok value => rfl
    | error error => exact ⟨[], stage, rfl, ends.resolve_left nofun⟩

end Attempt.Builds

namespace Deployment

variable {next : Caller} {site : Nat} {down : Pipeline}

theorem builds_replicaSet (name : String) :
    (assemble next site (.replicaSet name) down).Builds site [.replicaSet name] := by
  intro before result after ran
  cases ran
  refine ⟨[.replicaSet name], [], rfl, ⟨rfl, fun other => ?_, id, fun _ => ?_⟩, rfl⟩
  · by_cases own : name = other
    · subst own
      refine ⟨[⟨site, down⟩], ?_, by simp [Stage.joins]⟩
      simp [set?, ReplicaSet.join]
    · refine ⟨[], ?_, by simp [Stage.joins, own]⟩
      simp [set?, Keyed.lookup_put_of_ne (Ne.symm own)]
  · exact (LogShelf.Unchanged.refl _).rewrites fun _ _ => .refl _ _

/-- A new replica agrees with its log on a manifest, or cannot be built. -/
theorem builds_log {name : String} {settings : ReplicaSettings} {tap : Tap LogShelf}
    (apart : tap.intrusions = []) :
    (assemble next site (.log name settings tap) down).Builds site [.log name settings tap] := by
  intro before result after ran
  obtain ⟨_, _, got, ran⟩ := Attempt.lift_bind_cases ran
  cases got
  obtain ⟨store, _, held, ran⟩ := Attempt.lift_bind_cases ran
  obtain ⟨rfl, -⟩ := demand_cases held
  obtain ⟨⟨⟩, joined, put, ran⟩ := Attempt.lift_bind_cases ran
  have undisturbed (before' : before.Undisturbed) : joined.Undisturbed := by
    cases put
    exact List.forall_mem_append.mpr ⟨before', List.forall_mem_singleton.mpr apart⟩
  have logs : joined.logs = before.logs := by cases put; rfl
  have stations : joined.stations = before.stations := by cases put; rfl
  have sets : joined.sets = before.sets := by cases put; rfl
  have agreed {answer : Except LogError Unit} {last : Deployment}
      (asked : consult before.replicas.length settings.negotiate joined = some (answer, last)) :
      Assembles site [.log name settings tap] before last := by
    obtain ⟨stations', sets'⟩ := consult_spares asked
    have ensured (apart : before.Undisturbed) :=
      consult_alone (undisturbed apart) (fun _ => ReplicaSettings.negotiate_alone) asked
    refine ⟨stations'.trans stations, fun name => ⟨[], ?_, rfl⟩, fun apart => (ensured apart).2,
      fun apart => ?_⟩
    · rw [set?, sets', sets, List.append_nil]
      rfl
    · rw [← logs]
      exact (ensured apart).1
  obtain ⟨⟨⟩, last, asked, ran⟩ | ⟨error, failed, rfl⟩ := Attempt.bind_cases ran
  · obtain ⟨answer, asked, -⟩ := consulted_cases asked
    obtain ⟨stations', members, undisturbed', logs'⟩ := agreed asked
    cases ran
    exact ⟨_, [], rfl, ⟨stations', members, undisturbed', logs'⟩, rfl⟩
  · obtain ⟨answer, asked, -⟩ := consulted_cases failed
    exact ⟨_, [], rfl, agreed asked, [], _, rfl, rfl⟩

/-- What a stage is built from without regard to sets and logs. -/
theorem quiet_trace (tag : String) (before : Deployment) (result : Except PipelineError Pipeline)
    (after : Deployment) (ran : (assemble next site (.trace tag) down).run before =
      some (result, after)) :
    (result.toBool = true ∨ (Stage.trace tag).canFail = true) ∧ after.stations = before.stations ∧
      after.sets = before.sets ∧ after.replicas = before.replicas ∧ after.logs = before.logs := by
  obtain ⟨own, _, looked, ran⟩ := Attempt.lift_bind_cases ran
  obtain ⟨rfl, -⟩ := station_cases looked
  cases ran
  exact ⟨Or.inl rfl, rfl, rfl, rfl, rfl⟩

mutual

/-- A stage is built after those inside it. -/
theorem builds_stage (stage : Stage) (plain : ∀ inner ∈ stage.inOrder, inner.IsPlain)
    (down : Pipeline) : (assemble next site stage down).Builds site stage.inOrder := by
  cases stage with
  | forwarding branches =>
      obtain ⟨inside, -⟩ := List.forall_mem_append.mp plain
      refine .bind (builds_branches branches inside down) fun downs =>
        .quiet (fun _ => rfl) fun _ _ _ ran => ?_
      cases ran
      exact ⟨Or.inl rfl, rfl, rfl, rfl, rfl⟩
  | replicaSet name => exact builds_replicaSet name
  | log name settings tap => exact builds_log (plain _ (List.mem_singleton_self _))
  | eager draft => exact (plain _ (List.mem_singleton_self _)).elim
  | trace tag => exact .quiet (fun _ => rfl) (quiet_trace tag)
  | refuse reason =>
      refine .quiet (fun _ => rfl) fun _ _ _ ran => ?_
      cases ran
      exact ⟨Or.inr rfl, rfl, rfl, rfl, rfl⟩
  | _ =>
      refine .quiet (fun _ => rfl) fun _ _ _ ran => ?_
      cases ran
      exact ⟨Or.inl rfl, rfl, rfl, rfl, rfl⟩

theorem builds_stack (stack : List Stage)
    (plain : ∀ stage ∈ Stage.stackInOrder stack, stage.IsPlain) (down : Pipeline) :
    (assembleStack next site stack down).Builds site (Stage.stackInOrder stack) := by
  cases stack with
  | nil => exact .pure down
  | cons stage rest =>
      obtain ⟨below, here⟩ := List.forall_mem_append.mp plain
      exact .bind (builds_stack rest below down) fun inner => builds_stage stage here inner

theorem builds_branches (branches : List (List Stage))
    (plain : ∀ stage ∈ Stage.branchesInOrder branches, stage.IsPlain) (down : Pipeline) :
    (assembleAll next site branches down).Builds site (Stage.branchesInOrder branches) := by
  cases branches with
  | nil => exact .pure []
  | cons stack rest =>
      obtain ⟨here, others⟩ := List.forall_mem_append.mp plain
      rw [Stage.branchesInOrder, ← List.append_nil (Stage.branchesInOrder rest)]
      exact .bind (builds_stack stack here down) fun first =>
        .bind (builds_branches rest others down) fun others => .pure _

end

/-! ### Failed builds -/

/-- What a build that fails leaves of its stages: the members that joined sets for the site, and
what was stored in logs. A first snapshot is only stored once all stages are built. -/
structure Leaves (site : Nat) (tried : List Stage) (isBuilt : Prop) (before after : Deployment) :
    Prop where
  members : ∀ name, ∃ joined, (after.set? name).members = (before.set? name).members ++ joined ∧
    joined.map Member.site = List.replicate (tried.countP (Stage.joins name)) site
  records : before.logs.SameRecords after.logs
  snapshots : ∀ number,
    Recast (before.logs.isOnDisk number) (tried.filterMap Stage.format?)
        (before.logs.snapshot number) (after.logs.snapshot number) ∨
      isBuilt ∧ First (before.logs.isOnDisk number) (before.logs.snapshot number)
        (after.logs.snapshot number)

variable {before middle after : Deployment} {tried : List Stage}

theorem Assembles.leaves (assembles : Assembles site tried before after)
    (apart : before.Undisturbed) (isBuilt : Prop) : Leaves site tried isBuilt before after where
  members := assembles.members
  records := (assembles.logs apart).records
  snapshots number := Or.inl ((assembles.logs apart).snapshots number)

/-- After all stages are built, the first root is asked for. -/
theorem Assembles.supplied {placed : Deployment} (assembles : Assembles site tried before middle)
    (apart : before.Undisturbed) (supplies : placed.Supplies after)
    (sets : placed.sets = middle.sets) (replicas : placed.replicas = middle.replicas)
    (logs : placed.logs = middle.logs) : Leaves site tried True before after := by
  have undisturbed : placed.Undisturbed := by
    rw [Undisturbed, replicas]
    exact assembles.undisturbed apart
  have agreed := assembles.logs apart
  have begun := supplies.logs undisturbed
  rw [logs] at begun
  refine ⟨fun name => ?_, agreed.records.trans begun.records, fun number => ?_⟩
  · rw [set?, supplies.sets, sets]
    exact assembles.members name
  · have recast := agreed.snapshots number
    have first := begun.snapshots number
    rw [agreed.records.isOnDisk number] at first
    rcases first with same | ⟨absent, stored⟩
    · exact Or.inl (same ▸ recast)
    · rw [absent] at recast
      exact Or.inr ⟨trivial, recast.eq_of_none, stored⟩

theorem Leaves.congr {isBuilt : Prop} {start last : Deployment}
    (leaves : Leaves site tried isBuilt before after)
    (sets : before.sets = start.sets ∧ last.sets = after.sets)
    (logs : before.logs = start.logs ∧ last.logs = after.logs) :
    Leaves site tried isBuilt start last := by
  obtain ⟨members, records, snapshots⟩ := leaves
  rw [← logs.2, logs.1] at records snapshots
  refine ⟨fun name => ?_, records, snapshots⟩
  have joined := members name
  rwa [set?, set?, ← sets.2, sets.1] at joined

/-- The sets are as they were if none of the stages joined one, and only then. -/
theorem Leaves.sets_iff {isBuilt : Prop} (leaves : Leaves site tried isBuilt before after) :
    (∀ name, after.set? name = before.set? name) ↔ ∀ name, Stage.replicaSet name ∉ tried := by
  refine forall_congr' fun name => ?_
  obtain ⟨joined, members, sites⟩ := leaves.members name
  have length : joined.length = tried.countP (Stage.joins name) := by
    rw [← List.length_map (f := Member.site), sites, List.length_replicate]
  have same : after.set? name = before.set? name ↔ joined = [] := by
    have grown : (after.set? name).members = (before.set? name).members ↔ joined = [] := by
      rw [members, List.append_right_eq_self]
    rw [← grown]
    exact ⟨congrArg ReplicaSet.members, fun same => congrArg ReplicaSet.mk same⟩
  rw [same, ← List.length_eq_zero_iff, length, List.countP_eq_zero]
  constructor
  · exact fun none member => none _ member (beq_self_eq_true name)
  · intro absent stage member joins
    cases stage with
    | replicaSet other =>
        cases eq_of_beq joins
        exact absent member
    | _ => cases joins

/-- To end threads leaves all but workers and replicas alone. -/
theorem stopThreads_spares {ids : List ThreadId}
    (ran : ids.forM stopThread before = some ((), after)) :
    after = { before with workers := after.workers, replicas := after.replicas } := by
  induction ids generalizing before with
  | nil =>
      cases ran
      rfl
  | cons id rest ih =>
      obtain ⟨⟨⟩, middle, stopped, onward⟩ := Run.bind_cases ran
      have here : middle =
          { before with workers := middle.workers, replicas := middle.replicas } := by
        cases id with
        | main =>
            cases stopped
            rfl
        | worker number =>
            obtain ⟨state, _, looked, stopped⟩ := Run.bind_cases stopped
            obtain ⟨rfl, -⟩ := worker_cases looked
            cases stopped
            rfl
        | subscription number =>
            cases stopped
            rfl
      rw [ih onward, here]

/-- How far a site came that could not be launched. -/
theorem launch_failed {number : Nat} {standard : Option Node} {stack : List Stage}
    {error : PipelineError} (apart : before.Undisturbed)
    (plain : ∀ stage ∈ Stage.stackInOrder stack, stage.IsPlain)
    (ran : (launch caller number standard stack).run before = some (.error error, after)) :
    ∃ tried rest, Stage.stackInOrder stack = tried ++ rest ∧
      (rest = [] ∧ Leaves number tried True before after ∨
        (∃ front stage, tried = front ++ [stage] ∧ stage.canFail = true) ∧
          Leaves number tried False before after) ∧
      ∀ outlet, (after.stations.modify number fun own => { own with outlet := outlet }) =
        before.stations.modify number fun own => { own with outlet := outlet } := by
  obtain ⟨pipeline, built, assembled, ran⟩ | ⟨_, failed, -⟩ := Attempt.bind_cases ran
  · obtain ⟨tried, rest, same, assembles, whole⟩ := builds_stack stack plain _ _ _ _ assembled
    obtain ⟨⟨⟩, placed, put, ran⟩ := Attempt.lift_bind_cases ran
    have supplies : placed.Supplies after := by
      obtain ⟨root, last, asked, ran⟩ | ⟨_, failed, -⟩ := Attempt.bind_cases ran
      · have supplies := supplies_caller pipeline _ _ _ asked
        obtain ⟨own, _, looked, ran⟩ := Attempt.lift_bind_cases ran
        obtain ⟨rfl, -⟩ := station_cases looked
        dsimp only at ran
        split at ran
        · obtain ⟨_, started, -⟩ := Attempt.lift_cases ran
          cases started
        · cases ran
          exact supplies
      · exact supplies_caller pipeline _ _ _ failed
    refine ⟨tried, rest, same, Or.inl ⟨whole, ?_⟩, fun outlet => ?_⟩
    · cases put
      exact assembles.supplied apart supplies rfl rfl rfl
    · rw [supplies.stations]
      cases put
      rw [List.modify_modify_eq, assembles.stations]
      rfl
  · obtain ⟨tried, rest, same, assembles, failing⟩ := builds_stack stack plain _ _ _ _ failed
    refine ⟨tried, rest, same, Or.inr ⟨failing, assembles.leaves apart False⟩, fun outlet => ?_⟩
    rw [assembles.stations]

theorem addSite_spares {name : String} {schema : Schema} {number : Nat}
    (ran : addSite name schema before = some (number, after)) :
    number = before.stations.length ∧
      (∃ own, after.stations = before.stations ++ [⟨own, none⟩] ∧ own.queue.isStarted = false) ∧
        after.sets = before.sets ∧ after.replicas = before.replicas ∧ after.logs = before.logs := by
  cases ran
  exact ⟨rfl, ⟨_, rfl, rfl⟩, rfl, rfl, rfl⟩

/-- A build that fails leaves the sites as they were, with one more that never works. Its stages are
built in their order until one cannot be, and every one that joins a set adds a member of the new
site, which stays. No log gets or loses a record. A snapshot may have been converted to the formats
that were agreed on; and where all stages were built, a log without a snapshot may have got its
first one, whether or not a site can start from it. So sets are as they were exactly if no stage
that was tried joins one. -/
theorem failed_build_leaves {key name : String} {schema : Schema} {standard : Option Node}
    {stack : List Stage} {error : PipelineError} {found : Bool} {start before after : Deployment}
    (discarded : discard caller key start = some (found, before)) (apart : before.Undisturbed)
    (plain : ∀ stage ∈ Stage.stackInOrder stack, stage.IsPlain)
    (ran : (build caller key name schema standard stack).run start =
      some (.error error, after)) :
    ∃ tried rest own, Stage.stackInOrder stack = tried ++ rest ∧
      (rest = [] ∧ Leaves before.stations.length tried True before after ∨
        (∃ front stage, tried = front ++ [stage] ∧ stage.canFail = true) ∧
          Leaves before.stations.length tried False before after) ∧
      after.stations = before.stations ++ [⟨own, none⟩] ∧ own.queue.isStarted = false ∧
      ((∀ name, after.set? name = before.set? name) ↔ ∀ name, Stage.replicaSet name ∉ tried) := by
  obtain ⟨_, _, gone, ran⟩ := Attempt.lift_bind_cases ran
  cases discarded.symm.trans gone
  obtain ⟨_, _, got, ran⟩ := Attempt.lift_bind_cases ran
  cases got
  obtain ⟨number, fresh, added, ran⟩ := Attempt.lift_bind_cases ran
  obtain ⟨rfl, ⟨own, added, asleep⟩, sets, replicas, logs⟩ := addSite_spares added
  have apart : fresh.Undisturbed := by rwa [Undisturbed, replicas]
  obtain ⟨launched, middle, launch, ran⟩ := Attempt.outcome_bind_cases ran
  cases launched with
  | ok value => cases ran
  | error cause =>
      obtain ⟨⟨⟩, vacant, unused, ran⟩ := Attempt.lift_bind_cases ran
      obtain ⟨⟨⟩, last, abandoned, ran⟩ := Attempt.lift_bind_cases ran
      cases ran
      obtain ⟨_, _, got, stopped⟩ := Run.bind_cases abandoned
      cases got
      obtain ⟨tried, rest, same, ends, stations⟩ := launch_failed apart plain launch
      have spares := stopThreads_spares stopped
      have sets' : after.sets = middle.sets := by rw [spares]; cases unused; rfl
      have logs' : after.logs = middle.logs := by rw [spares]; cases unused; rfl
      have stations' : after.stations = middle.stations.modify before.stations.length
          fun own => { own with outlet := none } := by
        rw [spares]
        cases unused
        rfl
      have ends := ends.imp
        (And.imp_right fun leaves => leaves.congr ⟨sets, sets'⟩ ⟨logs, logs'⟩)
        (And.imp_right fun leaves => leaves.congr ⟨sets, sets'⟩ ⟨logs, logs'⟩)
      refine ⟨tried, rest, own, same, ends, ?_, asleep, ?_⟩
      · rw [stations', stations none, added, List.modify_eq_take_drop]
        simp
      · rcases ends with ⟨-, leaves⟩ | ⟨-, leaves⟩ <;> exact leaves.sets_iff

end Deployment

/-! ### A sample that leaves a member and a snapshot -/

namespace Sample

/-- A deployment of nothing but a log. -/
def shelved : Deployment := { Deployment.empty with logs := LogShelf.empty.addMemory "log" }

/-- A member of a set, in front of a log. -/
def joint : List Stage := [.replicaSet "set", .log "log" .standard .clear]

/-- A root without the fields that it has to have. -/
def hollow : Node := .struct ⟨[]⟩

/-- Build a site from a root, which may not be valid. -/
def buildFrom (root : Node) : Attempt Unit :=
  Deployment.build Deployment.caller "key" "sample" schema (some root) joint

/-- Whether a build comes to a good end. -/
def isBuilt (root : Node) (deployment : Deployment) : Option Bool :=
  ((buildFrom root).run deployment).map fun ran => ran.1.toBool

/-- After a build from a root that is not valid the set has a member more, the log has that root as
its first snapshot, and a build from a valid root fails, which would have succeeded before. -/
theorem failed_build_stays :
    (shelved.set? "set").size = 0 ∧ (shelved.logs.snapshot 0).toOption = some none ∧
      isBuilt tree shelved = some true ∧
      ((buildFrom hollow).run shelved).map (fun ran => (ran.1.toBool, (ran.2.set? "set").size,
          (ran.2.logs.snapshot 0).toOption, isBuilt tree ran.2)) =
        some (false, 1, some (some (.ofNode hollow .json 1 0)), some false) := by
  decide +kernel

/-- The build fails with a member more in the set, so one of the stages that were tried joins it. -/
theorem failed_build_joins :
    ∃ error after, Deployment.discard Deployment.caller "key" shelved = some (false, shelved) ∧
      shelved.Undisturbed ∧ (∀ stage ∈ Stage.stackInOrder joint, stage.IsPlain) ∧
      (buildFrom hollow).run shelved = some (.error error, after) ∧
      ∃ tried rest, Stage.stackInOrder joint = tried ++ rest ∧
        ¬ ∀ name, Stage.replicaSet name ∉ tried := by
  have discarded : Deployment.discard Deployment.caller "key" shelved = some (false, shelved) := rfl
  have apart : shelved.Undisturbed := nofun
  have plain : ∀ stage ∈ Stage.stackInOrder joint, stage.IsPlain := by
    intro stage member
    have only : stage ∈ [.log "log" .standard .clear, Stage.replicaSet "set"] := member
    simp only [List.mem_cons, List.not_mem_nil, or_false] at only
    rcases only with rfl | rfl
    · rfl
    · trivial
  have ends : ((buildFrom hollow).run shelved).map (fun ran =>
      (ran.1.toBool, (ran.2.set? "set").size)) = some (false, 1) := by
    decide +kernel
  obtain ⟨⟨result, after⟩, ran, ends⟩ := Option.map_eq_some_iff.mp ends
  have failed : result.toBool = false := (Prod.mk.inj ends).1
  have joined : (after.set? "set").size = 1 := (Prod.mk.inj ends).2
  cases result with
  | ok value => cases failed
  | error error =>
      obtain ⟨tried, rest, own, same, -, -, -, iff⟩ :=
        Deployment.failed_build_leaves discarded apart plain ran
      refine ⟨error, after, discarded, apart, plain, ran, tried, rest, same, fun absent => ?_⟩
      rw [iff.mpr absent "set"] at joined
      cases joined

end Sample

end StateTree
