/-
Module: StateTree.Proofs.Interleaving
Purpose: Any number of replicas at work on one log, with their calls interleaved in any way. What
  the log holds at every moment says all that it was ever given, exactly as long as no snapshot
  takes the place of one of a later position. Where each is made from the one it takes the place
  of that is so; a change of format does not see to it.
-/
import StateTree.Proofs.Lineage
import StateTree.Proofs.Typing

namespace StateTree

/-- What a replica does on its log. -/
inductive LogTask where
  | negotiate (settings : ReplicaSettings)
  /-- Load the snapshot, or store the first one, with this tree. -/
  | join (settings : ReplicaSettings) (root : Node)
  | append (settings : ReplicaSettings) (correlation : Uuid) (body : RecordBody)
  | compact (settings : ReplicaSettings) (position : Nat)

namespace LogTask

/-- The calls of a task. -/
def program (schema : Schema) : LogTask → LogProgram Unit
  | .negotiate settings => settings.negotiate
  | .join settings root => do
      let _ ← settings.obtain root
      pure ()
  | .append settings correlation body => do
      let _ ← settings.attempt (.append correlation body)
      pure ()
  | .compact settings position => settings.compact schema position

/-- A replica appends once it has joined, and so once there is a snapshot; and it compacts up to
where it has come, which is not beyond the head. -/
def isReady (log : MemoryLog) : LogTask → Bool
  | .append _ _ _ => log.state.isSome
  | .compact _ position => decide (position ≤ log.head)
  | _ => true

def settings : LogTask → ReplicaSettings
  | .negotiate settings => settings
  | .join settings _ => settings
  | .append settings _ _ => settings
  | .compact settings _ => settings

end LogTask

/-- A step of the replicas of a log. -/
inductive LogEvent where
  /-- A replica sets about a task. -/
  | start (task : LogTask)
  /-- The log answers the next call of a task that was started. -/
  | proceed (index : Nat)
  /-- The next call of a task fails, with no effect. -/
  | refuse (index : Nat) (error : LogError)

/-- Whoever sets about a task prefers the format. -/
def LogEvent.Prefers (format : StateFormat) : LogEvent → Prop
  | .start task => task.settings.preferredFormat = format
  | _ => True

/-- A log with what was ever given to it, and the tasks that were started, as far as they are to be
done yet. -/
structure LogPool where
  ledger : Ledger
  tasks : List (LogProgram Unit)

namespace LogPool

/-- A log that nothing was done to. -/
def empty : LogPool := ⟨.empty, []⟩

/-- The pool after a step. -/
def after (schema : Schema) (pool : LogPool) : LogEvent → LogPool
  | .start task =>
      if task.isReady pool.ledger.log then
        { pool with tasks := pool.tasks ++ [task.program schema] }
      else pool
  | .proceed index =>
      match pool.tasks[index]? with
      | some program =>
          ⟨(program.advance pool.ledger).2,
            pool.tasks.set index (program.advance pool.ledger).1⟩
      | none => pool
  | .refuse index error =>
      match pool.tasks[index]? with
      | some program =>
          if error.isTransient then
            { pool with tasks := pool.tasks.set index (program.refuse error) }
          else pool
      | none => pool

/-- The pool after steps from the start. -/
def run (schema : Schema) (events : List LogEvent) : LogPool := events.foldl (after schema) empty

variable {schema : Schema}

theorem run_append (events more : List LogEvent) :
    run schema (events ++ more) = more.foldl (after schema) (run schema events) :=
  List.foldl_append

theorem run_concat (events : List LogEvent) (event : LogEvent) :
    run schema (events ++ [event]) = (run schema events).after schema event := by
  rw [run_append]
  rfl

theorem grows_after (pool : LogPool) (event : LogEvent) :
    pool.ledger.Grows (pool.after schema event).ledger := by
  cases event with
  | start task =>
      simp only [after]
      split <;> exact .refl _
  | proceed index =>
      simp only [after]
      split
      · rename_i program found
        cases program with
        | done result => exact .refl _
        | rest time next => exact .refl _
        | ask call next => exact pool.ledger.grows_answer call
      · exact .refl _
  | refuse index error =>
      simp only [after]
      split
      · split <;> exact .refl _
      · exact .refl _

theorem grows_run {moment events : List LogEvent} (early : moment <+: events) :
    (run schema moment).ledger.Grows (run schema events).ledger := by
  obtain ⟨more, rfl⟩ := early
  rw [run_append]
  generalize run schema moment = pool
  induction more generalizing pool with
  | nil => exact .refl _
  | cons event more ih => exact (pool.grows_after event).trans (ih _)

/-! ### A step and a run, for any invariant -/

/-- An invariant of the ledger holds, and every task keeps it whatever the others do. -/
structure Keeps (invariant : Ledger → Prop) (pool : LogPool) : Prop where
  holds : invariant pool.ledger
  tasks : ∀ program ∈ pool.tasks, program.Ensures invariant (fun _ _ => True) pool.ledger

theorem stable_true {α : Type} : ∀ result : Except LogError α,
    LogProgram.Stable ((fun _ _ => True : Except LogError α → Ledger → Prop) result) :=
  fun _ _ _ _ _ => trivial

/-- A step keeps the invariant when every task keeps it that is started. -/
theorem Keeps.after {invariant : Ledger → Prop} {pool : LogPool} (keeps : pool.Keeps invariant)
    {event : LogEvent}
    (starts : ∀ task, event = .start task → task.isReady pool.ledger.log = true →
      (task.program schema).Ensures invariant (fun _ _ => True) pool.ledger) :
    (pool.after schema event).Keeps invariant := by
  cases event with
  | start task =>
      simp only [LogPool.after]
      split
      · rename_i ready
        refine ⟨keeps.holds, fun program member => ?_⟩
        rcases List.mem_append.mp member with there | new
        · exact keeps.tasks program there
        · rw [List.mem_singleton.mp new]
          exact starts task rfl ready
      · exact keeps
  | proceed index =>
      simp only [LogPool.after]
      cases found : pool.tasks[index]? with
      | none => exact keeps
      | some program =>
          have member := List.mem_of_getElem? found
          obtain ⟨holds, grows, rest⟩ := (keeps.tasks program member).advance keeps.holds
          refine ⟨holds, fun other there => ?_⟩
          rcases List.mem_or_eq_of_mem_set there with before | same
          · exact (keeps.tasks other before).later stable_true grows
          · rw [same]
            exact rest
  | refuse index error =>
      simp only [LogPool.after]
      cases found : pool.tasks[index]? with
      | none => exact keeps
      | some program =>
          have member := List.mem_of_getElem? found
          simp only
          split
          · rename_i transient
            refine ⟨keeps.holds, fun other there => ?_⟩
            rcases List.mem_or_eq_of_mem_set there with before | same
            · exact keeps.tasks other before
            · rw [same]
              exact (keeps.tasks program member).refuse keeps.holds transient
          · exact keeps

/-- A run keeps an invariant that the empty log has and that every task keeps. -/
theorem keeps_run {invariant : Ledger → Prop} (start : invariant .empty) {events : List LogEvent}
    (starts : ∀ task, .start task ∈ events → ∀ ledger : Ledger, invariant ledger →
      task.isReady ledger.log = true →
        (task.program schema).Ensures invariant (fun _ _ => True) ledger) :
    (run schema events).Keeps invariant := by
  induction events using List.reverseRecOn with
  | nil => exact ⟨start, fun program none => by cases none⟩
  | append_singleton events event ih =>
      have before := ih fun task member => starts task (List.mem_append_left _ member)
      rw [run_concat]
      refine before.after fun task same ready => ?_
      exact starts task (by simp [same]) _ before.holds ready

/-! ### Consistency -/

/-- Every task that may be started keeps the ledger consistent. -/
theorem ensures_program {ledger : Ledger} (consistent : ledger.Consistent schema) {task : LogTask}
    (ready : task.isReady ledger.log = true) :
    (task.program schema).Ensures (Ledger.Consistent schema) (fun _ _ => True) ledger := by
  cases task with
  | negotiate settings => exact settings.ensures_negotiate
  | join settings root =>
      refine LogProgram.ensures_then ((settings.ensures_obtain root).weaken ?_) fun _ _ => trivial
      exact fun _ _ _ => trivial
  | append settings correlation body =>
      exact LogProgram.ensures_then (settings.ensures_append correlation body) fun _ _ => trivial
  | compact settings position =>
      apply settings.ensures_compact
      simpa [LogTask.isReady, consistent.tidy.head_eq] using ready

theorem consistent_run (schema : Schema) (events : List LogEvent) :
    (run schema events).ledger.Consistent schema :=
  (keeps_run Ledger.consistent_empty fun _ _ _ consistent ready =>
    ensures_program consistent ready).holds

/-! ### Order -/

/-- A log to which nothing was appended before the first snapshot. -/
abbrev Whole : Ledger → Prop := Ledger.Begun True fun first => first.position = 0

theorem ensures_program_whole {ledger : Ledger} (whole : Whole ledger) {task : LogTask}
    (ready : task.isReady ledger.log = true) :
    (task.program schema).Ensures Whole (fun _ _ => True) ledger := by
  cases task with
  | negotiate settings => exact settings.begun_negotiate
  | join settings root =>
      refine LogProgram.ensures_then (settings.begun_obtain root ?_) fun _ _ => trivial
      exact fun head none => none trivial
  | append settings correlation body =>
      have joined : True → ledger.Joined := fun _ => whole.tidy.joined ready
      exact LogProgram.ensures_then (settings.begun_append joined correlation body)
        fun _ _ => trivial
  | compact settings position => exact settings.begun_compact position

theorem whole_run (schema : Schema) (events : List LogEvent) : Whole (run schema events).ledger :=
  (keeps_run Ledger.begun_empty fun _ _ _ whole ready => ensures_program_whole whole ready).holds

/-- Where snapshots are in order and read back, a consistent ledger is sound. -/
theorem sound_of_consistent {ledger : Ledger} (consistent : ledger.Consistent schema)
    (whole : Whole ledger) (inOrder : ledger.InOrder) (faithful : ledger.Faithful schema) :
    ledger.Sound schema := by
  have tidy := consistent.tidy
  have stored {document : StateDocument} (found : ledger.log.state = some document) :
      document ∈ ledger.documents :=
    List.mem_of_getLast? (tidy.latest.symm.trans found)
  refine ⟨whole.first, inOrder, fun document found => ?_, fun document found => ?_⟩
  · rw [tidy.head_eq]
    exact ⟨consistent.covered inOrder document found, consistent.inside document (stored found)⟩
  · obtain ⟨tree, read, there⟩ := consistent.reads faithful document (stored found)
    have inside := consistent.inside document (stored found)
    refine ⟨tree, read, there, ?_⟩
    rw [consistent.treeAt?_of_le (stored found) there inside, Ledger.fold, Ledger.between,
      List.take_length, tidy.since_eq (consistent.covered inOrder document found)]

/-- A snapshot that a step has stored is the latest. -/
theorem getLast?_of_stored {pool : LogPool} {event : LogEvent} {document : StateDocument}
    (member : document ∈ (pool.after schema event).ledger.documents)
    (new : document ∉ pool.ledger.documents) :
    (pool.after schema event).ledger.documents.getLast? = some document := by
  cases event with
  | start task =>
      simp only [after] at member
      split at member <;> exact absurd member new
  | proceed index =>
      simp only [after] at member ⊢
      cases found : pool.tasks[index]? with
      | none =>
          rw [found] at member
          exact absurd member new
      | some program =>
          rw [found] at member
          cases program with
          | done result => exact absurd member new
          | rest time next => exact absurd member new
          | ask call next => exact Ledger.getLast?_of_stored member new
  | refuse index error =>
      simp only [after] at member
      split at member
      · split at member <;> exact absurd member new
      · exact absurd member new

/-- A snapshot that was stored was the latest at some moment. -/
theorem exists_latest {events : List LogEvent} {document : StateDocument}
    (member : document ∈ (run schema events).ledger.documents) :
    ∃ moment, moment <+: events ∧ (run schema moment).ledger.log.state = some document := by
  induction events using List.reverseRecOn with
  | nil => cases member
  | append_singleton events event ih =>
      by_cases there : document ∈ (run schema events).ledger.documents
      · obtain ⟨moment, early, found⟩ := ih there
        exact ⟨moment, early.trans (List.prefix_append _ _), found⟩
      · refine ⟨events ++ [event], List.prefix_rfl, ?_⟩
        rw [(consistent_run schema _).tidy.latest]
        rw [run_concat] at member ⊢
        exact getLast?_of_stored member there

/-! ### One format -/

theorem ensures_program_uniform {format : StateFormat} {task : LogTask}
    (prefers : task.settings.preferredFormat = format) {ledger : Ledger} :
    (task.program schema).Ensures (Ledger.Uniform format fun _ => True) (fun _ _ => True)
      ledger := by
  cases task with
  | negotiate settings => exact ReplicaSettings.uniform_negotiate prefers
  | join settings root =>
      exact LogProgram.ensures_then (ReplicaSettings.uniform_obtain prefers root)
        fun _ _ => trivial
  | append settings correlation body =>
      exact LogProgram.ensures_then (settings.uniform_append correlation trivial) fun _ _ => trivial
  | compact settings position => exact ReplicaSettings.uniform_compact prefers position

/-- While everyone prefers one format, each snapshot is made from the one before it. -/
theorem inTurn_run {format : StateFormat} {events : List LogEvent}
    (prefers : ∀ event ∈ events, event.Prefers format) : (run schema events).ledger.InTurn := by
  have uniform : (run schema events).Keeps (Ledger.Uniform format fun _ => True) :=
    keeps_run Ledger.uniform_empty fun task member ledger uniform ready =>
      ensures_program_uniform (prefers _ member)
  exact uniform.holds.inTurn

/-! ### The result -/

/-- At every moment of a run the stored snapshot and the retained records say all that the log was
ever given, exactly when no snapshot ever takes the place of one of a later position and all of them
read back. The former holds where each snapshot is made from the one it takes the place of, and so
while all replicas prefer one format. -/
theorem sound_iff (schema : Schema) (events : List LogEvent) :
    ((∀ moment, moment <+: events → (run schema moment).ledger.Sound schema) ↔
        (run schema events).ledger.InOrder ∧ (run schema events).ledger.Faithful schema) ∧
      ((run schema events).ledger.InTurn → (run schema events).ledger.InOrder) ∧
      ∀ format, (∀ event ∈ events, event.Prefers format) →
        (run schema events).ledger.InTurn := by
  have latest (sound : ∀ moment, moment <+: events → (run schema moment).ledger.Sound schema)
      {document : StateDocument} (member : document ∈ (run schema events).ledger.documents) :
      ∃ tree, document.tree? schema = some tree ∧
        (run schema events).ledger.treeAt? schema document.position = some tree := by
    obtain ⟨moment, early, found⟩ := exists_latest member
    obtain ⟨tree, read, there, -⟩ := (sound moment early).determines document found
    have consistent := consistent_run schema moment
    have held := List.mem_of_getLast? (consistent.tidy.latest.symm.trans found)
    refine ⟨tree, read, ?_⟩
    rw [(grows_run early).treeAt?_eq (List.ne_nil_of_mem held) (consistent.inside document held)]
    exact there
  refine ⟨⟨fun sound => ⟨(sound events List.prefix_rfl).inOrder, ?_, ?_, ?_⟩, ?_⟩, ?_, ?_⟩
  · intro first found
    obtain ⟨tree, read, -⟩ := latest sound (List.mem_of_head? found)
    rw [read]
    rfl
  · intro document member tree found encodes
    obtain ⟨other, read, there⟩ := latest sound member
    cases there.symm.trans found
    exact read
  · intro earlier there document member raw position node encodes
    obtain ⟨tree, read, found⟩ := latest sound there
    obtain ⟨other, back, same⟩ := latest sound member
    rw [position] at same
    cases found.symm.trans same
    have completed : some (schema.polyfill raw) = some tree := by
      rw [← read, StateDocument.tree?, node]
      rfl
    exact back.trans completed.symm
  · rintro ⟨inOrder, faithful⟩ moment early
    have grows : (run schema moment).ledger.Grows (run schema events).ledger := grows_run early
    have consistent := consistent_run schema moment
    exact sound_of_consistent consistent (whole_run schema moment) (inOrder.of_grows grows)
      (faithful.of_grows grows consistent.inside)
  · exact (consistent_run schema events).inOrder_of_inTurn
  · exact fun format prefers => inTurn_run prefers

end LogPool

/-! ### A change of format that undoes a compaction -/

namespace Sample

/-- A replica that prefers a format. -/
def preferring (format : StateFormat) : ReplicaSettings :=
  { ReplicaSettings.standard with preferredFormat := format }

/-- The title of the sample is replaced. -/
def entitle : RecordBody :=
  .update ⟨.replacement (.ofNames ["title"]) (.str "new"), default⟩

/-- A replica joins, appends a record, and compacts up to it. Another one changes the format
meanwhile: the snapshot that it converts is the one from before the compaction. -/
def overtaken : List LogEvent :=
  [.start (.negotiate (preferring .json)), .proceed 0,
    .start (.join (preferring .json) tree), .proceed 1, .proceed 1, .proceed 1,
    .start (.negotiate (preferring .binary)), .proceed 2, .proceed 2,
    .start (.append (preferring .json) (Uuid.ofNat 0) entitle), .proceed 3,
    .start (.compact (preferring .json) 1), .proceed 4, .proceed 4, .proceed 4, .proceed 4,
    .proceed 2]

/-- In the end the snapshot is of a position whose record is dropped. -/
theorem overtaken_not_sound :
    ((LogPool.run schema overtaken).ledger.log.state.map StateDocument.position = some 0 ∧
        (LogPool.run schema overtaken).ledger.log.first = 1) ∧
      ¬ ∀ moment, moment <+: overtaken → (LogPool.run schema moment).ledger.Sound schema := by
  have moved : (LogPool.run schema overtaken).ledger.log.state.map StateDocument.position = some 0 ∧
      (LogPool.run schema overtaken).ledger.log.first = 1 := by decide +kernel
  refine ⟨moved, fun sound => ?_⟩
  obtain ⟨document, found, position⟩ := Option.map_eq_some_iff.mp moved.1
  have within := ((sound overtaken List.prefix_rfl).within document found).1
  rw [moved.2, position] at within
  exact Nat.not_succ_le_zero 0 within

end Sample

end StateTree
