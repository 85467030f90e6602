/-
Module: StateTree.Proofs.Compaction
Purpose: What a compaction leaves of a log. The trees that the log describes from its snapshot on
  are the same, wherever the compaction comes to an end.
-/
import StateTree.Proofs.Outcomes
import StateTree.Proofs.Replication

namespace StateTree

/-! ### The trees that a log describes -/

namespace MemoryLog

variable {schema : Schema} {log later : MemoryLog} {document : StateDocument}

/-- A tree of one position with the retained records before another one folded in. -/
def fold (schema : Schema) (log : MemoryLog) (start stop : Nat) (root : Node) : Node :=
  ((log.since start).filter fun record => record.number < stop).foldl (LogRecord.foldInto schema)
    root

/-- What a log with a snapshot is read to be before the record of a number. -/
def replayed (schema : Schema) (log : MemoryLog) (document : StateDocument) (upTo : Nat) :
    Except LogError Replayed :=
  match document.tree? schema with
  | some root =>
      .ok ⟨document.revision, document.position, log.fold schema document.position upTo root⟩
  | none => .error .codec

/-- To fold in records up to a position, and those up to a later one, is to fold in all of them. -/
theorem Numbered.fold_fold (numbered : log.Numbered) {start middle stop : Nat}
    (retained : log.first ≤ start) (early : start ≤ middle) (late : middle ≤ stop) (root : Node) :
    log.fold schema middle stop (log.fold schema start middle root) =
      log.fold schema start stop root := by
  obtain ⟨between, whole, inside, beyond⟩ := numbered.since_split retained early
  have first : (between.filter fun record => decide (record.number < stop)) = between :=
    List.filter_eq_self.mpr fun record member =>
      decide_eq_true (Nat.lt_of_lt_of_le (inside record member).2 late)
  have own : (between.filter fun record => decide (record.number < middle)) = between :=
    List.filter_eq_self.mpr fun record member => decide_eq_true (inside record member).2
  have none : ((log.since middle).filter fun record => decide (record.number < middle)) = [] :=
    List.filter_eq_nil_iff.mpr fun record member => by simpa using beyond record member
  simp only [fold, whole, List.filter_append, first, own, none, List.append_nil, List.foldl_append]

/-- The latest records, as many as there are from a position on, are those of no lower number. -/
theorem Numbered.take_eq_filter (numbered : log.Numbered) {position : Nat}
    (retained : log.first ≤ position) :
    log.records.take (log.head - position) =
      log.records.filter fun record => decide (position ≤ record.number) := by
  obtain ⟨between, whole, inside, beyond⟩ := numbered.since_split (Nat.le_refl _) retained
  rw [numbered.since_eq_drop (Nat.le_refl _), Nat.sub_self, List.drop_zero] at whole
  have gone : (between.filter fun record => decide (position ≤ record.number)) = [] :=
    List.filter_eq_nil_iff.mpr fun record member => by simpa using (inside record member).2
  have kept : ((log.since position).filter fun record => decide (position ≤ record.number)) =
      log.since position :=
    List.filter_eq_self.mpr fun record member => decide_eq_true (beyond record member)
  have both : log.records.reverse.filter (fun record => decide (position ≤ record.number)) =
      (log.records.take (log.head - position)).reverse := by
    rw [whole, List.filter_append, gone, kept]
    rfl
  rw [List.filter_reverse] at both
  exact (List.reverse_inj.mp both).symm

/-- What is left of a log when the records before a position that it knows are dropped. -/
theorem Numbered.discarded (numbered : log.Numbered) {position : Nat}
    (retained : log.first ≤ position) (inside : position ≤ log.head) :
    let left := (log.answer (.discardBefore position)).2
    left.state = log.state ∧ left.head = log.head ∧ left.since position = log.since position ∧
      left.first = position ∧
        left.records = log.records.filter fun record => decide (position ≤ record.number) := by
  have later := (numbered.answer (.discardBefore position)).head_eq
  have kept : max log.first (min position log.head) = position := by omega
  have head := numbered.head_eq
  simp only [MemoryLog.answer, kept] at later ⊢
  have length : (log.records.take (log.head - position)).length = log.head - position := by
    rw [List.length_take]
    omega
  rw [length, Nat.add_sub_of_le inside] at later
  refine ⟨trivial, later, ?_, trivial, numbered.take_eq_filter retained⟩
  rw [MemoryLog.since, later, List.take_take, Nat.min_self, MemoryLog.since]

/-- Logs with the same records from a position on describe the same trees there. -/
theorem fold_congr {start : Nat} (same : later.since start = log.since start) (stop : Nat)
    (root : Node) : later.fold schema start stop root = log.fold schema start stop root := by
  rw [fold, fold, same]

/-- The tree that a log of regular values describes is regular and complete. -/
theorem fold_spec (bodies : ∀ record ∈ log.records, record.body.Regular)
    (distinct : schema.DistinctFields) (start stop : Nat) {root : Node} (regular : root.Regular)
    (complete : schema.Complete schema.rootType root) :
    (log.fold schema start stop root).Regular ∧
      schema.Complete schema.rootType (log.fold schema start stop root) := by
  refine LogRecord.foldl_spec (fun record member => bodies record ?_) distinct regular complete
  have here := (List.mem_filter.mp member).1
  exact List.mem_of_mem_take (List.mem_reverse.mp here)

end MemoryLog

/-! ### Replaying -/

namespace ReplicaSettings

variable {settings : ReplicaSettings} {schema : Schema} {number : Nat} {shelf later : LogShelf}
  {log : MemoryLog} {document : StateDocument}

/-- The tree that a log describes before the record of a number, if it can be told. -/
def told (settings : ReplicaSettings) (schema : Schema) (number upTo : Nat) (shelf : LogShelf) :
    Except LogError Node :=
  ((settings.replay schema upTo).run (LogShelf.perform number) shelf 0).1.map Replayed.root

section Answers

variable (shows : shelf.Shows number log) (stored : log.state = some document)
  (retained : log.first ≤ document.position)

include shows retained in
theorem perform_readFrom :
    shelf.perform number (.readFrom document.position) =
      (.ok (log.since document.position), shelf) := by
  have answered := (shows.perform (.readFrom document.position) fun _ => trivial).1
  rw [MemoryLog.answer, if_neg (Nat.not_lt_of_le retained)] at answered
  exact Prod.ext answered (shows.perform_looks rfl)

include shows stored retained in
/-- A replay reads the snapshot and the records after it, and leaves the logs the same. -/
theorem run_replay (schema : Schema) (upTo clock : Nat) :
    (settings.replay schema upTo).run (LogShelf.perform number) shelf clock =
      (log.replayed schema document upTo, shelf, clock) := by
  have state := stored ▸ shows.perform_state
  have records := perform_readFrom shows retained
  have required (absence : String) :
      (settings.requireState absence).run (LogShelf.perform number) shelf clock =
        (.ok document, shelf, clock) := by
    rw [requireState, LogProgram.run_bind, loadState, attempt, LogProgram.run_attempt_ok state]
    rfl
  rw [replay, LogProgram.run_bind, required]
  dsimp only
  rw [LogProgram.run_bind, StateDocument.load, MemoryLog.replayed, StateDocument.tree?]
  cases document.node? with
  | none => rfl
  | some root =>
      dsimp only [LogProgram.run, pure]
      rw [LogProgram.run_bind, attempt, LogProgram.run_attempt_ok records]
      rfl

include shows stored in
theorem requireState_cases {absence : String} {result : Except LogError StateDocument}
    (ends : (settings.requireState absence).Ends number shelf result later) :
    (result = .ok document ∨ ∃ error, result = .error error) ∧ later = shelf := by
  obtain ⟨read, middle, attempted, onward⟩ := ends.bind_cases
  rcases attempted.attempt_cases (stored ▸ shows.perform_state) with
    ⟨rfl, rfl⟩ | ⟨⟨error, rfl⟩, rfl⟩
  · cases onward
    exact ⟨Or.inl rfl, rfl⟩
  · obtain ⟨rfl, rfl⟩ := onward
    exact ⟨Or.inr ⟨_, rfl⟩, rfl⟩

include shows stored retained in
/-- When calls of a replay fail it yields the same or an error, and leaves the logs the same. -/
theorem replay_cases {upTo : Nat} {result : Except LogError Replayed}
    (ends : (settings.replay schema upTo).Ends number shelf result later) :
    (result = log.replayed schema document upTo ∨ ∃ error, result = .error error) ∧
      later = shelf := by
  obtain ⟨found, middle, required, onward⟩ := ends.bind_cases
  obtain ⟨rfl | ⟨error, rfl⟩, rfl⟩ := requireState_cases shows stored required
  case inr =>
    obtain ⟨rfl, rfl⟩ := onward
    exact ⟨Or.inr ⟨_, rfl⟩, rfl⟩
  obtain ⟨loaded, between, load, further⟩ := LogProgram.Ends.bind_cases onward
  rw [MemoryLog.replayed, StateDocument.tree?]
  unfold StateDocument.load at load
  cases read : document.node? with
  | none =>
      rw [read] at load
      cases load
      obtain ⟨rfl, rfl⟩ := further
      exact ⟨Or.inl rfl, rfl⟩
  | some root =>
      rw [read] at load
      cases load
      obtain ⟨given, last, attempted, folded⟩ := LogProgram.Ends.bind_cases further
      rcases attempted.attempt_cases (perform_readFrom shows retained) with
        ⟨rfl, rfl⟩ | ⟨⟨error, rfl⟩, rfl⟩
      · cases folded
        exact ⟨Or.inl rfl, rfl⟩
      · obtain ⟨rfl, rfl⟩ := folded
        exact ⟨Or.inr ⟨_, rfl⟩, rfl⟩

include shows stored retained in
theorem told_eq (settings : ReplicaSettings) (schema : Schema) (upTo : Nat) :
    settings.told schema number upTo shelf =
      (log.replayed schema document upTo).map Replayed.root := by
  rw [told, run_replay shows stored retained]

end Answers

/-! ### Compacting -/

/-- The snapshot that a compaction stores of a tree. -/
def successor (settings : ReplicaSettings) (document : StateDocument) (position : Nat)
    (root : Node) : StateDocument :=
  .ofNode root settings.manifest.format (document.revision + 1) position

section Answers

variable {position : Nat} {root : Node} (shows : shelf.Shows number log)
  (stored : log.state = some document) (retained : log.first ≤ document.position)
  (inside : position ≤ log.head)

include shows stored in
/-- The next snapshot takes the place of the one that it was made of. -/
theorem perform_replaceState (takes : shelf.isOnDisk number = true →
      (settings.successor document position root).Storable) :
    ∃ after, shelf.perform number (.replaceState (some document.revision)
        (settings.successor document position root)) = (.ok (), after) ∧
      after.Shows number
        { log with state := some (settings.successor document position root) } := by
  obtain ⟨answered, after⟩ := shows.perform (.replaceState (some document.revision)
    (settings.successor document position root)) takes
  have same : log.state.map StateDocument.revision = some document.revision := by
    rw [stored]
    rfl
  rw [MemoryLog.answer, if_pos same] at answered after
  exact ⟨_, Prod.ext answered rfl, after⟩

/-- The snapshot that a compaction of a log stores can be read back. -/
def Stores (settings : ReplicaSettings) (schema : Schema) (number : Nat) (shelf : LogShelf)
    (log : MemoryLog) (document : StateDocument) (position : Nat) : Prop :=
  ∀ root, document.tree? schema = some root → shelf.isOnDisk number = true →
    (settings.successor document position
      (log.fold schema document.position position root)).Storable

variable (takes : settings.Stores schema number shelf log document position)

include shows stored retained inside takes in
/-- A compaction comes to an end with the log as it was, or with the next snapshot stored, and when
it ends well then the records before that are gone. -/
theorem compact_cases {result : Except LogError Unit}
    (ends : (settings.compact schema position).Ends number shelf result later) :
    (later = shelf ∧ (result = .ok () → position ≤ document.position)) ∨
      ∃ root left, document.position < position ∧ document.tree? schema = some root ∧
        later.Shows number left ∧
        left.state = some (settings.successor document position
          (log.fold schema document.position position root)) ∧
        left.head = log.head ∧ left.first ≤ position ∧ left.since position = log.since position ∧
        (result = .ok () → left.first = position ∧
          left.records = log.records.filter fun record => decide (position ≤ record.number)) := by
  obtain ⟨found, middle, replayed, onward⟩ := ends.bind_cases
  obtain ⟨rfl | ⟨error, rfl⟩, rfl⟩ := replay_cases shows stored retained replayed
  case inr =>
    obtain ⟨rfl, rfl⟩ := onward
    exact Or.inl ⟨rfl, nofun⟩
  rw [MemoryLog.replayed] at onward
  cases held : document.tree? schema with
  | none =>
      rw [held] at onward
      obtain ⟨rfl, rfl⟩ := onward
      exact Or.inl ⟨rfl, nofun⟩
  | some root =>
      rw [held] at onward
      by_cases covered : position ≤ document.position
      · simp only [if_pos covered] at onward
        cases onward
        exact Or.inl ⟨rfl, fun _ => covered⟩
      · simp only [if_neg covered] at onward
        obtain ⟨after, performed, afterShows⟩ := perform_replaceState shows stored (takes root held)
        obtain ⟨answer, between, replaced, further⟩ := LogProgram.Ends.bind_cases onward
        have known : log.first ≤ position := by omega
        rcases replaced.call_cases with same | ⟨⟨error, rfl⟩, rfl⟩
        · cases same.trans performed
          have beyond := Nat.lt_of_not_le covered
          -- The snapshot is stored by now, whether or not the records are dropped after it.
          rcases LogProgram.Ends.call_cases further with dropped | ⟨⟨error, rfl⟩, rfl⟩
          · obtain ⟨state, head, since, first, records⟩ :=
              MemoryLog.Numbered.discarded afterShows.numbered known inside
            have last := (afterShows.perform (.discardBefore position) fun _ => trivial).2
            rw [← congrArg Prod.snd dropped] at last
            exact Or.inr ⟨root, _, beyond, rfl, last, state, head, Nat.le_of_eq first, since,
              fun _ => ⟨first, records⟩⟩
          · exact Or.inr ⟨root, _, beyond, rfl, afterShows, rfl, rfl, known, rfl, nofun⟩
        · obtain ⟨rfl, rfl⟩ := further
          exact Or.inl ⟨rfl, nofun⟩

include shows stored retained takes in
/-- When no call fails, a compaction of a log with a snapshot that can be read ends well. -/
theorem run_compact_ok (read : document.node?.isSome = true) (clock : Nat) :
    ((settings.compact schema position).run (LogShelf.perform number) shelf clock).1 = .ok () := by
  obtain ⟨raw, found⟩ := Option.isSome_iff_exists.mp read
  have held : document.tree? schema = some (schema.polyfill raw) := by
    rw [StateDocument.tree?, found]
    rfl
  rw [compact, LogProgram.run_bind, run_replay shows stored retained, MemoryLog.replayed, held]
  dsimp only
  split
  · rfl
  · obtain ⟨after, performed, afterShows⟩ := perform_replaceState shows stored (takes _ held)
    have dropped := (afterShows.perform (.discardBefore position) fun _ => trivial).1
    unfold successor at performed
    rw [LogProgram.run_bind, LogProgram.call, LogProgram.run, performed]
    exact dropped

end Answers

end ReplicaSettings

/-! ### What a compaction keeps -/

/-- The next snapshot is read as the complete tree that it was made of. -/
theorem ReplicaSettings.tree?_successor {settings : ReplicaSettings} {schema : Schema}
    {document : StateDocument} {position : Nat} {root : Node} (regular : root.Regular)
    (complete : schema.Complete schema.rootType root)
    (holds : settings.preferredFormat.Holds root) :
    (settings.successor document position root).tree? schema = some root := by
  have back : (settings.successor document position root).node? = some root :=
    StateFormat.decode?_encode regular holds
  rw [StateDocument.tree?, back, Option.map_some, Schema.polyfill_eq_self complete]

/-- Nobody can tell from what a log says that it was compacted, from its snapshot on. Revisions are
counted without a bound here; while the next one is a word of 64 bits, so is that of the snapshot
that the log has then, be it on disk, where nothing else can be stored, or in memory. -/
theorem ReplicaSettings.compact_keeps {settings : ReplicaSettings} {schema : Schema}
    {builder : SchemaBuilder} (built : builder.build = .ok schema)
    (distinct : schema.DistinctFields) (defaults : schema.DefaultsRegular)
    {number position : Nat} {shelf : LogShelf} {log : MemoryLog} {document : StateDocument}
    (shows : shelf.Shows number log) (stored : log.state = some document)
    (retained : log.first ≤ document.position) (inside : position ≤ log.head)
    (bodies : ∀ record ∈ log.records, record.body.Regular)
    (regular : ∀ raw, document.node? = some raw → raw.Regular)
    (holds : ∀ root, settings.told schema number position shelf = .ok root →
      settings.preferredFormat.Holds root)
    (storable : shelf.isOnDisk number = true → ∀ root,
      settings.told schema number position shelf = .ok root →
        (settings.successor document position root).Storable) :
    (∀ result later, (settings.compact schema position).Ends number shelf result later →
      later.head number = shelf.head number ∧
      (∃ latest, later.snapshot number = .ok (some latest) ∧
        (document.revision + 1 < UInt64.size → latest.revision < UInt64.size) ∧
        ∀ upTo, latest.position ≤ upTo →
          settings.told schema number upTo later = settings.told schema number upTo shelf) ∧
      (position ≤ document.position → later = shelf) ∧
      (document.position < position → result = .ok () →
        (∃ latest, later.snapshot number = .ok (some latest) ∧
          latest.revision = document.revision + 1 ∧ latest.position = position) ∧
        later.retained number = (position, (shelf.retained number).2.filter fun record =>
          decide (position ≤ record.number)))) ∧
    (document.node?.isSome = true → ∀ clock,
      ((settings.compact schema position).run (LogShelf.perform number) shelf clock).1 =
        .ok ()) := by
  have tells {root : Node} (held : document.tree? schema = some root) (upTo : Nat) :
      settings.told schema number upTo shelf =
        .ok (log.fold schema document.position upTo root) := by
    rw [told_eq shows stored retained, MemoryLog.replayed, held]
    rfl
  have takes : settings.Stores schema number shelf log document position :=
    fun root held onDisk => storable onDisk _ (tells held position)
  refine ⟨fun result later ends => ?_, fun read =>
    run_compact_ok shows stored retained takes read⟩
  obtain ⟨rfl, covered⟩ |
      ⟨root, left, beyond, held, leftShows, state, head, known, since, dropped⟩ :=
    compact_cases shows stored retained inside takes ends
  · refine ⟨rfl, ⟨document, ?_, Nat.lt_of_succ_lt, fun _ _ => rfl⟩, fun _ => rfl,
      fun beyond ended => ?_⟩
    · rw [shows.snapshot_eq, stored]
    · exact absurd (covered ended) (Nat.not_le_of_lt beyond)
  · have raw : ∃ raw, document.node? = some raw ∧ schema.polyfill raw = root :=
      Option.map_eq_some_iff.mp held
    obtain ⟨raw, read, rfl⟩ := raw
    obtain ⟨folded, complete⟩ := MemoryLog.fold_spec bodies distinct document.position position
      (Schema.regular_polyfill defaults (regular raw read))
      (Schema.complete_polyfill distinct (Schema.defaultsFit_of_build built) raw)
    have back : (settings.successor document position (log.fold schema document.position position
        (schema.polyfill raw))).tree? schema = some _ :=
      tree?_successor folded complete (holds _ (tells held position))
    refine ⟨?_, ⟨_, leftShows.snapshot_eq.trans (congrArg _ state), id, fun upTo late => ?_⟩,
      fun early => absurd beyond (Nat.not_lt_of_le early), fun _ ended => ⟨⟨_,
        leftShows.snapshot_eq.trans (congrArg _ state), rfl, rfl⟩, ?_⟩⟩
    · rw [leftShows.head_eq, shows.head_eq, head]
    · rw [tells held, told_eq leftShows state known, MemoryLog.replayed, back]
      change Except.ok (left.fold schema position upTo _) = _
      rw [MemoryLog.fold_congr since, shows.numbered.fold_fold retained (Nat.le_of_lt beyond) late]
    · obtain ⟨first, records⟩ := dropped ended
      rw [leftShows.retained_eq, shows.retained_eq, first, records]

namespace Sample

/-- The sample's tree in octets. -/
def packed : StateDocument := .ofNode tree .binary 1 0

/-- A snapshot, a new title after it, and a barrier. -/
def entitled : List StoreEvent :=
  [.ask (.replaceState none packed), .ask (.append (Uuid.ofNat 0) naming),
    .ask (.append (Uuid.ofNat 1) .barrier)]

/-- The log in memory then. -/
def entitledLog : MemoryLog := entitled.foldl MemoryLog.after .empty

/-- The tree with its new title. -/
def retitled : Node :=
  .struct ⟨[("chosen", .listing ⟨targets, [a]⟩),
    ("notes", .sideTable ⟨targets, [(a, .str "first"), (b, .str "gone")]⟩),
    ("targets", .catalog ⟨[(a, .struct ⟨[("id", .id a)]⟩)]⟩),
    ("title", .str "new")]⟩

/-- What is computed of the sample: its texts can be counted, and the log describes the tree with
the new title before its barrier. -/
theorem computed_entitled :
    (StateFormat.binary.Holds tree ∧ packed.bytes.length < UInt64.size) ∧
      (StateFormat.json.Holds retitled ∧
        (ReplicaSettings.standard.successor packed 1 retitled).bytes.length < UInt64.size) ∧
      ((entitledLog.replayed schema packed 1).map Replayed.root).toOption = some retitled := by
  decide +kernel

theorem node?_packed : packed.node? = some tree :=
  StateFormat.decode?_encode regular_tree computed_entitled.1.1

theorem disciplined_entitled : MemoryLog.empty.Disciplined entitled :=
  ⟨⟨by decide, by decide, computed_entitled.1.2⟩, fun _ => ⟨by decide, by decide⟩,
    ⟨by decide, naming_storable, by decide⟩, trivial, ⟨by decide, trivial, by decide⟩, trivial,
    trivial⟩

theorem regular_entitled : ∀ record ∈ entitledLog.records, record.body.Regular := by
  refine List.forall_mem_cons.mpr ⟨trivial, List.forall_mem_singleton.mpr ?_⟩
  rintro value ⟨⟩
  exact .str _

theorem replayed_entitled :
    (entitledLog.replayed schema packed 1).map Replayed.root = .ok retitled :=
  eq_ok_of_toOption computed_entitled.2.2

theorem retained_entitled : (entitledLog.records.filter fun record => decide (1 ≤ record.number)) =
    [⟨1, Uuid.ofNat 1, .barrier⟩] := rfl

theorem storable_entitled :
    (ReplicaSettings.standard.successor packed 1 retitled).Storable :=
  ⟨by decide, by decide, computed_entitled.2.1.2⟩

/-- The log in a directory is compacted at position one, with the snapshot as JSON from then on. -/
theorem entitled_compacted : ∃ start answers store, FileStore.opened .standard .absent = .ok start ∧
    start.run entitled = .ok (answers, store) ∧
      let shelf : LogShelf := ⟨[.file store.log 0], [store.directory], []⟩
      let later :=
        ((ReplicaSettings.standard.compact schema 1).run (LogShelf.perform 0) shelf 0).2.1
      later.head 0 = shelf.head 0 ∧ later.retained 0 = (1, [⟨1, Uuid.ofNat 1, .barrier⟩]) ∧
        ∃ latest, later.snapshot 0 = .ok (some latest) ∧ latest.revision = 2 ∧ latest.position = 1 ∧
          ∀ upTo, 1 ≤ upTo → ReplicaSettings.standard.told schema 0 upTo later =
            ReplicaSettings.standard.told schema 0 upTo shelf := by
  have empty : Directory.absent.entries = [] := rfl
  obtain ⟨start, answers, store, opens, ran, shows⟩ :=
    LogShelf.shows_of_run .standard empty disciplined_entitled
  refine ⟨start, answers, store, opens, ran, ?_⟩
  change LogShelf.Shows 0 entitledLog _ at shows
  generalize (⟨[.file store.log 0], [store.directory], []⟩ : LogShelf) = shelf at shows
  have stored : entitledLog.state = some packed := rfl
  have retained : entitledLog.first ≤ packed.position := Nat.le_refl 0
  have inside : 1 ≤ entitledLog.head := Nat.le_succ 1
  have holds : StateFormat.json.Holds retitled := computed_entitled.2.1.1
  have told (root : Node)
      (same : ReplicaSettings.standard.told schema 0 1 shelf = .ok root) : root = retitled := by
    rw [ReplicaSettings.told_eq shows stored retained] at same
    exact Except.ok.inj (same.symm.trans replayed_entitled)
  have regular (raw : Node) (same : packed.node? = some raw) : raw.Regular := by
    cases node?_packed.symm.trans same
    exact regular_tree
  obtain ⟨keeps, ends⟩ := ReplicaSettings.compact_keeps built distinctFields defaultsRegular shows
    stored retained inside regular_entitled regular (fun root same => told root same ▸ holds)
    (fun _ root same => told root same ▸ storable_entitled)
  have ended := ends (by rw [node?_packed]; rfl) 0
  obtain ⟨head, ⟨latest, held, -, same⟩, -, moved⟩ := keeps _ _ (LogProgram.ends_run _ _ 0)
  obtain ⟨⟨found, here, revision, position⟩, left⟩ := moved Nat.one_pos ended
  cases held.symm.trans here
  refine ⟨head, left.trans ?_, latest, held, revision, position, position ▸ same⟩
  rw [shows.retained_eq]
  exact congrArg _ retained_entitled

end Sample

end StateTree
