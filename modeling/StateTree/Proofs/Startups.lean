/-
Module: StateTree.Proofs.Startups
Purpose: What the start of a replica does to the logs while nobody else uses them. No record is
  added or dropped. A snapshot may be converted to the format that the replica prefers, and where
  there is none the first one may be stored.
-/
import StateTree.Log.Replica
import StateTree.Proofs.Directories

namespace StateTree

/-! ### What logs hold -/

/-- What a log tells of its snapshot once a document has been stored. A log on disk reads it from
octets. -/
def StateDocument.reread (isOnDisk : Bool) (document : StateDocument) :
    Except LogError (Option StateDocument) :=
  if isOnDisk then
    match Codec.ofBinary? (Codec.put document) with
    | some found => .ok (some found)
    | none => .error .codec
  else .ok (some document)

theorem StateDocument.reread_ne_none (isOnDisk : Bool) (document : StateDocument) :
    document.reread isOnDisk ≠ .ok none := by
  unfold StateDocument.reread
  split
  · split <;> nofun
  · nofun

/-- The documents that a call stores if it can. -/
def LogCall.offered {α : Type} : LogCall α → List StateDocument
  | .replaceState _ document => [document]
  | .upgrade _ _ (some document) => [document]
  | _ => []

/-- Whether a call leaves the records alone. -/
def LogCall.sparesRecords {α : Type} : LogCall α → Bool
  | .append _ _ => false
  | .discardBefore _ => false
  | _ => true

namespace FileLog

/-- The segment in a directory is the same, and so is what it tells of the snapshot, unless one of
these documents was stored. -/
structure Resaves (offered : List StateDocument) (before after : Directory) : Prop where
  segment : after.read segmentName = before.read segmentName
  state : readState after = readState before ∨
    ∃ document ∈ offered, readState after = document.reread true

variable {offered : List StateDocument} {before middle after : Directory}

theorem Resaves.refl (offered : List StateDocument) (directory : Directory) :
    Resaves offered directory directory := ⟨rfl, Or.inl rfl⟩

theorem Resaves.trans (early : Resaves offered before middle)
    (late : Resaves offered middle after) : Resaves offered before after := by
  refine ⟨late.segment.trans early.segment, ?_⟩
  rcases late.state with same | stored
  · rw [same]
    exact early.state
  · exact Or.inr stored

end FileLog

namespace LogShelf

/-- What is in the directory of a number. -/
def directory (shelf : LogShelf) (number : Nat) : Directory :=
  (shelf.directories[number]?).getD Directory.absent

/-- Whether a log is kept in a directory. -/
def isOnDisk (shelf : LogShelf) (number : Nat) : Bool :=
  match shelf.stores[number]? with
  | some (.file _ _) => true
  | _ => false

/-- What a log tells of its snapshot. -/
def snapshot (shelf : LogShelf) (number : Nat) : Except LogError (Option StateDocument) :=
  match shelf.stores[number]? with
  | some (.memory log) => .ok log.state
  | some (.file _ place) => FileLog.readState (shelf.directory place)
  | none => .error .io

/-- The number of the first record that a log retains, and the records, latest first. -/
def retained (shelf : LogShelf) (number : Nat) : Nat × List LogRecord :=
  match shelf.stores[number]? with
  | some (.memory log) => (log.first, log.records)
  | some (.file log _) => (log.first, log.records.map Prod.snd)
  | none => (0, [])

/-- The records of all logs are the same, those in their files as well. -/
structure SameRecords (before after : LogShelf) : Prop where
  isOnDisk : ∀ number, after.isOnDisk number = before.isOnDisk number
  retained : ∀ number, after.retained number = before.retained number
  segment : ∀ place, (after.directory place).read FileLog.segmentName =
    (before.directory place).read FileLog.segmentName

theorem SameRecords.refl (shelf : LogShelf) : shelf.SameRecords shelf :=
  ⟨fun _ => rfl, fun _ => rfl, fun _ => rfl⟩

theorem SameRecords.trans {first second third : LogShelf} (early : first.SameRecords second)
    (late : second.SameRecords third) : first.SameRecords third where
  isOnDisk number := (late.isOnDisk number).trans (early.isOnDisk number)
  retained number := (late.retained number).trans (early.retained number)
  segment place := (late.segment place).trans (early.segment place)

/-- The records of all logs are the same, and what they tell of their snapshots has changed in such
a way. -/
structure Rewrites (change : Bool → (before after : Except LogError (Option StateDocument)) → Prop)
    (before after : LogShelf) : Prop where
  records : before.SameRecords after
  snapshots : ∀ number,
    change (before.isOnDisk number) (before.snapshot number) (after.snapshot number)

/-- Logs hold what they did before. -/
def Unchanged (before after : LogShelf) : Prop := Rewrites (fun _ old new => new = old) before after

/-- A call of one log has stored such a document, if any. Logs in the directory of that log have the
same snapshot as it. -/
structure Stores (number : Nat) (offered : List StateDocument) (before after : LogShelf) :
    Prop where
  records : before.SameRecords after
  snapshots : ∀ other, after.snapshot other = before.snapshot other ∨
    before.snapshot other = before.snapshot number ∧
      ∃ document ∈ offered, after.snapshot other = document.reread (before.isOnDisk other)

variable {shelf before middle after : LogShelf} {number place : Nat}

theorem Unchanged.refl (shelf : LogShelf) : shelf.Unchanged shelf := ⟨.refl shelf, fun _ => rfl⟩

theorem Unchanged.trans (early : before.Unchanged middle) (late : middle.Unchanged after) :
    before.Unchanged after :=
  ⟨early.records.trans late.records, fun number =>
    (late.snapshots number).trans (early.snapshots number)⟩

theorem Unchanged.rewrites {change : Bool → (_ _ : Except LogError (Option StateDocument)) → Prop}
    (unchanged : before.Unchanged after) (still : ∀ isOnDisk told, change isOnDisk told told) :
    Rewrites change before after := by
  refine ⟨unchanged.records, fun number => ?_⟩
  rw [unchanged.snapshots number]
  exact still _ _

/-- What is the same to the eye can be put in front of a change. -/
theorem Unchanged.then {change : Bool → (_ _ : Except LogError (Option StateDocument)) → Prop}
    (unchanged : before.Unchanged middle) (rewrites : Rewrites change middle after) :
    Rewrites change before after := by
  refine ⟨unchanged.records.trans rewrites.records, fun number => ?_⟩
  have changed := rewrites.snapshots number
  rwa [unchanged.snapshots number, unchanged.records.isOnDisk number] at changed

theorem Stores.unchanged (stores : Stores number [] before after) : before.Unchanged after := by
  refine ⟨stores.records, fun other => ?_⟩
  rcases stores.snapshots other with same | ⟨-, document, offered, -⟩
  · exact same
  · cases offered

theorem Stores.then {offered : List StateDocument} (stores : Stores number offered before middle)
    (unchanged : middle.Unchanged after) : Stores number offered before after := by
  refine ⟨stores.records.trans unchanged.records, fun other => ?_⟩
  rw [unchanged.snapshots other]
  exact stores.snapshots other

theorem Stores.refl (offered : List StateDocument) (shelf : LogShelf) :
    Stores number offered shelf shelf :=
  ⟨.refl shelf, fun _ => Or.inl rfl⟩

/-! ### Calls -/

/-- A log in memory that has answered a call. -/
theorem stores_memory {log later : MemoryLog} {offered : List StateDocument}
    (there : shelf.stores[number]? = some (.memory log)) (first : later.first = log.first)
    (records : later.records = log.records)
    (state : later.state = log.state ∨ ∃ document ∈ offered, later.state = some document) :
    Stores number offered shelf
      { shelf with stores := shelf.stores.set number (.memory later) } := by
  have lt : number < shelf.stores.length := (List.getElem?_eq_some_iff.mp there).1
  have same (other : Nat) (different : number ≠ other) :
      (shelf.stores.set number (.memory later))[other]? = shelf.stores[other]? :=
    List.getElem?_set_ne different
  have here : (shelf.stores.set number (.memory later))[number]? = some (.memory later) :=
    List.getElem?_set_self lt
  refine ⟨⟨fun other => ?_, fun other => ?_, fun _ => rfl⟩, fun other => ?_⟩
  · by_cases own : number = other
    · subst own
      simp only [isOnDisk, here, there]
    · simp only [isOnDisk, same other own]
  · by_cases own : number = other
    · subst own
      simp only [LogShelf.retained, here, there, first, records]
    · simp only [LogShelf.retained, same other own]
  · by_cases own : number = other
    · subst own
      refine state.imp (fun kept => ?_) (fun ⟨document, member, stored⟩ => ?_)
      · simp only [snapshot, here, there, kept]
      · refine ⟨rfl, document, member, ?_⟩
        simp only [snapshot, here, isOnDisk, there, stored, StateDocument.reread]
        rfl
    · exact Or.inl (by simp only [snapshot, same other own]; rfl)

/-- When what is in a directory is put anew, the other directories are as they were; and one of a
number that none has stays empty. -/
theorem directory_set (shelf : LogShelf) (place : Nat) (contents : Directory) (other : Nat) :
    let later : LogShelf := { shelf with directories := shelf.directories.set place contents }
    later.directory other = shelf.directory other ∨
      other = place ∧ later.directory other = contents := by
  by_cases own : place = other
  · subst own
    by_cases lt : place < shelf.directories.length
    · exact Or.inr ⟨rfl, by simp [directory, lt]⟩
    · exact Or.inl (by simp [directory, lt])
  · exact Or.inl (by simp [directory, List.getElem?_set_ne own])

/-- A log on disk that has answered a call, with its directory as it is then. -/
theorem stores_file {log : FileLog} {contents : Directory} {offered : List StateDocument}
    (there : shelf.stores[number]? = some (.file log place))
    (resaves : FileLog.Resaves offered (shelf.directory place) contents) :
    Stores number offered shelf
      { shelf with
        stores := shelf.stores.set number (.file log place)
        directories := shelf.directories.set place contents } := by
  have unmoved : shelf.stores.set number (.file log place) = shelf.stores := by
    obtain ⟨lt, same⟩ := List.getElem?_eq_some_iff.mp there
    rw [← same, List.set_getElem_self]
  rw [unmoved]
  have renewed := shelf.directory_set place contents
  generalize made : ({ shelf with directories := shelf.directories.set place contents } :
    LogShelf) = later at renewed
  have alike : later.stores = shelf.stores := by rw [← made]
  refine ⟨⟨fun other => ?_, fun other => ?_, fun other => ?_⟩, fun other => ?_⟩
  · simp only [isOnDisk, alike]
  · simp only [LogShelf.retained, alike]
  · rcases renewed other with same | ⟨rfl, same⟩
    · rw [same]
    · rw [same, resaves.segment]
  · simp only [snapshot, isOnDisk, alike, there]
    cases shelf.stores[other]? with
    | none => exact Or.inl rfl
    | some store =>
        cases store with
        | memory log => exact Or.inl rfl
        | file own elsewhere =>
            rcases renewed elsewhere with same | ⟨rfl, same⟩
            · exact Or.inl (congrArg FileLog.readState same)
            · simp only [same]
              exact resaves.state.imp_right fun stored => ⟨trivial, stored⟩

end LogShelf

/-- What is put in the place of a file is read under its name, and under other names what was read
before. -/
theorem Directory.read_replace {before after : Directory} {name : String} {bytes : Bytes}
    (replaced : before.replace name bytes = .ok after) :
    after.read name = .ok (some bytes) ∧
      ∀ other, other ≠ name → after.read other = before.read other := by
  have made : after = before.create name bytes := by
    unfold replace at replaced
    split at replaced
    · cases replaced
    · split at replaced <;> cases replaced
      rfl
  subst made
  refine ⟨by simp [read, create], fun other different => ?_⟩
  simp only [read, create, Keyed.lookup_putSorted_of_ne different]

namespace FileLog

variable {before after : Directory}

theorem resaves_writeState {document : StateDocument}
    (written : writeState before document = .ok after) : Resaves [document] before after := by
  obtain ⟨here, elsewhere⟩ := Directory.read_replace written
  refine ⟨elsewhere segmentName (by decide), Or.inr ⟨document, List.mem_singleton_self _, ?_⟩⟩
  cases read : (Codec.ofBinary? (Codec.put document) : Option StateDocument) <;>
    simp only [readState, here, StateDocument.reread, read, if_true]

theorem resaves_writeManifest {manifest : Manifest} (offered : List StateDocument)
    (written : writeManifest before manifest = .ok after) : Resaves offered before after := by
  obtain ⟨-, elsewhere⟩ := Directory.read_replace written
  refine ⟨elsewhere segmentName (by decide), Or.inl ?_⟩
  simp only [readState, elsewhere stateName (by decide)]

/-- A call that leaves the records alone changes an open log in no way, and its directory only by
what it stores. -/
theorem perform_cases {α : Type} {call : LogCall α} (spares : call.sparesRecords = true)
    (log : FileLog) (directory : Directory) :
    ∃ contents, (log.perform directory call).2 = (log, contents) ∧
      Resaves call.offered directory contents := by
  have still := Resaves.refl call.offered directory
  cases call with
  | append correlation body => cases spares
  | discardBefore position => cases spares
  | manifest => exact ⟨_, rfl, still⟩
  | state => exact ⟨_, rfl, still⟩
  | head => exact ⟨_, rfl, still⟩
  | readFrom position =>
      simp only [perform]
      split <;> exact ⟨_, rfl, still⟩
  | initializeManifest manifest =>
      simp only [perform]
      split
      · exact ⟨_, rfl, still⟩
      · exact ⟨_, rfl, still⟩
      · split
        · rename_i written
          exact ⟨_, rfl, resaves_writeManifest _ written⟩
        · exact ⟨_, rfl, still⟩
  | replaceState expected document =>
      simp only [perform]
      split
      · exact ⟨_, rfl, still⟩
      · split
        · cases written : writeState directory document with
          | error error => exact ⟨_, rfl, still⟩
          | ok contents => exact ⟨_, rfl, resaves_writeState written⟩
        · exact ⟨_, rfl, still⟩
  | upgrade expected manifest document =>
      simp only [perform]
      split
      · exact ⟨_, rfl, still⟩
      · split
        · cases document with
          | none =>
              cases written : writeManifest directory manifest with
              | error error => exact ⟨_, rfl, still⟩
              | ok contents => exact ⟨_, rfl, resaves_writeManifest _ written⟩
          | some document =>
              -- The snapshot is written first; it stays if the manifest cannot be written.
              dsimp only
              cases stored : writeState directory document with
              | error error => exact ⟨_, rfl, still⟩
              | ok contents =>
                  have resaves := resaves_writeState stored
                  dsimp only
                  cases written : writeManifest contents manifest with
                  | error error => exact ⟨_, rfl, resaves⟩
                  | ok later => exact ⟨_, rfl, resaves.trans (resaves_writeManifest _ written)⟩
        · exact ⟨_, rfl, still⟩

end FileLog

namespace MemoryLog

theorem perform_cases {α : Type} {call : LogCall α} (spares : call.sparesRecords = true)
    (log : MemoryLog) :
    (log.perform call).2.first = log.first ∧ (log.perform call).2.records = log.records ∧
      ((log.perform call).2.state = log.state ∨
        ∃ document ∈ call.offered, (log.perform call).2.state = some document) := by
  unfold perform
  split
  case h_2 => exact ⟨rfl, rfl, Or.inl rfl⟩
  cases call with
  | append correlation body => cases spares
  | discardBefore position => cases spares
  | replaceState expected document =>
      simp only [answer]
      split
      · exact ⟨rfl, rfl, Or.inr ⟨document, List.mem_singleton_self _, rfl⟩⟩
      · exact ⟨rfl, rfl, Or.inl rfl⟩
  | upgrade expected manifest document =>
      simp only [answer]
      split
      · cases document with
        | none => exact ⟨rfl, rfl, Or.inl rfl⟩
        | some document => exact ⟨rfl, rfl, Or.inr ⟨document, List.mem_singleton_self _, rfl⟩⟩
      · exact ⟨rfl, rfl, Or.inl rfl⟩
  | readFrom position =>
      simp only [answer]
      split <;> exact ⟨rfl, rfl, Or.inl rfl⟩
  | _ => exact ⟨rfl, rfl, Or.inl rfl⟩

end MemoryLog

namespace LogShelf

variable {shelf : LogShelf} {number : Nat}

/-- A call reaches the log of its number, in memory or on disk, or no log. -/
theorem perform_cases (shelf : LogShelf) (number : Nat) :
    (∃ log, shelf.stores[number]? = some (.memory log) ∧ ∀ {α : Type} (call : LogCall α),
        shelf.perform number call = ((log.perform call).1,
          { shelf with stores := shelf.stores.set number (.memory (log.perform call).2) })) ∨
      (∃ log place, shelf.stores[number]? = some (.file log place) ∧
        ∀ {α : Type} (call : LogCall α), shelf.perform number call =
          ((log.perform (shelf.directory place) call).1,
            { shelf with
              stores := shelf.stores.set number
                (.file (log.perform (shelf.directory place) call).2.1 place)
              directories := shelf.directories.set place
                (log.perform (shelf.directory place) call).2.2 })) ∨
      ∀ {α : Type} (call : LogCall α), shelf.perform number call = (.error .io, shelf) := by
  cases there : shelf.stores[number]? with
  | none => exact Or.inr (Or.inr fun call => by rw [perform, there])
  | some store =>
      cases store with
      | memory log => exact Or.inl ⟨log, rfl, fun call => by rw [perform, there]⟩
      | file log place =>
          refine Or.inr (Or.inl ⟨log, place, rfl, fun call => ?_⟩)
          rw [perform, there]
          rfl

/-- A call that leaves the records alone changes no more than the snapshot that it stores. -/
theorem stores_perform {α : Type} (shelf : LogShelf) (number : Nat) {call : LogCall α}
    (spares : call.sparesRecords = true) :
    Stores number call.offered shelf (shelf.perform number call).2 := by
  obtain ⟨log, there, same⟩ | ⟨log, place, there, same⟩ | same := shelf.perform_cases number
  · obtain ⟨first, records, state⟩ := log.perform_cases spares
    rw [same]
    exact stores_memory there first records state
  · obtain ⟨contents, answered, resaves⟩ := log.perform_cases spares (shelf.directory place)
    rw [same, answered]
    exact stores_file there resaves
  · rw [same]
    exact .refl _ shelf

/-- What a log answers when it is asked for its snapshot. -/
theorem snapshot_of_perform {stored : Option StateDocument}
    (answered : (shelf.perform number .state).1 = .ok stored) :
    shelf.snapshot number = .ok stored := by
  obtain ⟨log, there, same⟩ | ⟨log, place, there, same⟩ | same := shelf.perform_cases number
  · rw [same] at answered
    simp only [snapshot, there]
    unfold MemoryLog.perform at answered
    split at answered
    · exact answered
    · cases answered
  · rw [same] at answered
    simp only [snapshot, there]
    exact answered
  · rw [same] at answered
    cases answered

/-- A first snapshot is taken by a log that has none; any other log stays as it is. -/
theorem perform_first_cases (shelf : LogShelf) (number : Nat) (document : StateDocument) :
    shelf.snapshot number = .ok none ∨
      shelf.Unchanged (shelf.perform number (.replaceState none document)).2 := by
  obtain ⟨log, there, same⟩ | ⟨log, place, there, same⟩ | same := shelf.perform_cases number
  · rw [same]
    unfold MemoryLog.perform
    split
    · simp only [MemoryLog.answer]
      split
      · rename_i absent
        exact Or.inl (by simp only [snapshot, there, Option.map_eq_none_iff.mp absent])
      · exact Or.inr (stores_memory there rfl rfl (Or.inl rfl)).unchanged
    · rename_i failures failing
      let later : MemoryLog := { log with failures := failures }
      have stores : Stores number [] shelf
          { shelf with stores := shelf.stores.set number (.memory later) } :=
        stores_memory there rfl rfl (Or.inl rfl)
      exact Or.inr stores.unchanged
  · rw [same]
    simp only [FileLog.perform]
    split
    · exact Or.inr (stores_file there (.refl _ _)).unchanged
    · rename_i stored told
      split
      · rename_i absent
        exact Or.inl (by simp only [snapshot, there, told, Option.map_eq_none_iff.mp absent])
      · exact Or.inr (stores_file there (.refl _ _)).unchanged
  · rw [same]
    exact Or.inr (.refl shelf)

end LogShelf

/-! ### Programs alone with the logs -/

/-- How a replica makes the calls of a log: each is answered by the log, or it fails on the way, and
nothing else happens. -/
def Fair (number : Nat)
    (perform : {β : Type} → LogCall β → Tap LogShelf × LogShelf →
      Except LogError β × (Tap LogShelf × LogShelf)) : Prop :=
  ∀ {β : Type} (call : LogCall β) (tap : Tap LogShelf) (shelf : LogShelf), tap.intrusions = [] →
    perform call (tap, shelf) =
        ((shelf.perform number call).1, (tap, (shelf.perform number call).2)) ∨
      ∃ reason later, later.intrusions = [] ∧
        perform call (tap, shelf) = (.error (.backend reason), (later, shelf))

/-- A tap without intrusions only lets calls fail. -/
theorem Tap.fair_perform (number : Nat) : Fair number (Tap.perform (LogShelf.perform number)) := by
  intro β call tap shelf apart
  have through : tap.intrude call.method shelf = (tap, shelf) := by
    rw [Tap.intrude, apart]
    rfl
  unfold Tap.perform
  simp only [through]
  split
  · exact Or.inr ⟨_, tap.fail _ _, apart, rfl⟩
  · exact Or.inl rfl

namespace LogProgram

variable {α β : Type}

/-- What a program on a log ensures that nobody comes between. Each of its calls may also fail, with
no effect. -/
def Alone (number : Nat) (post : Except LogError α → LogShelf → Prop) :
    LogProgram α → LogShelf → Prop
  | .done result, shelf => post result shelf
  | .rest _ next, shelf => next.Alone number post shelf
  | .ask call next, shelf =>
      (next (shelf.perform number call).1).Alone number post (shelf.perform number call).2 ∧
        ∀ reason, (next (.error (.backend reason))).Alone number post shelf

variable {number : Nat} {post : Except LogError α → LogShelf → Prop}

theorem Alone.weaken {weaker : Except LogError α → LogShelf → Prop} {program : LogProgram α}
    {shelf : LogShelf} (alone : program.Alone number post shelf)
    (implies : ∀ result later, post result later → weaker result later) :
    program.Alone number weaker shelf := by
  induction program generalizing shelf with
  | done result => exact implies result shelf alone
  | rest time next ih => exact ih alone
  | ask call next ih => exact ⟨ih _ alone.1, fun reason => ih _ (alone.2 reason)⟩

/-- One program after another. -/
theorem Alone.bind {program : LogProgram α} {next : α → LogProgram β}
    {post : Except LogError β → LogShelf → Prop} {shelf : LogShelf}
    (alone : program.Alone number (fun result later =>
      match result with
      | .ok value => (next value).Alone number post later
      | .error error => post (.error error) later) shelf) :
    (program >>= next).Alone number post shelf := by
  change (program.bind next).Alone number post shelf
  induction program generalizing shelf with
  | done result => cases result <;> exact alone
  | rest time program ih => exact ih alone
  | ask call answer ih => exact ⟨ih _ alone.1, fun reason => ih _ (alone.2 reason)⟩

/-- A program with another way to go on from its errors. -/
theorem Alone.recover {program : LogProgram α} {handle : LogError → LogProgram α}
    {shelf : LogShelf} (alone : program.Alone number (fun result later =>
      match result with
      | .ok value => post (.ok value) later
      | .error error => (handle error).Alone number post later) shelf) :
    (program.recover handle).Alone number post shelf := by
  induction program generalizing shelf with
  | done result => cases result <;> exact alone
  | rest time program ih => exact ih alone
  | ask call answer ih => exact ⟨ih _ alone.1, fun reason => ih _ (alone.2 reason)⟩

/-- A call that stores nothing and is tried again. The logs are the same after each time. -/
theorem alone_attempt {call : LogCall α} {delay : Nat → Nat} {failed retries : Nat}
    {shelf : LogShelf} (spares : call.sparesRecords = true) (offered : call.offered = [])
    (answered : ∀ now later, shelf.Unchanged now → shelf.Unchanged later →
      post (now.perform number call).1 later)
    (refused : ∀ error later, shelf.Unchanged later → post (.error error) later) :
    (LogProgram.attempt call delay failed retries).Alone number post shelf := by
  have still (now : LogShelf) : now.Unchanged (now.perform number call).2 :=
    (offered ▸ now.stores_perform number spares).unchanged
  have here := answered shelf _ (.refl shelf) (still shelf)
  induction retries generalizing failed shelf with
  | zero => exact ⟨here, fun reason => refused _ _ (.refl shelf)⟩
  | succ retries ih =>
      have again {later : LogShelf} (same : shelf.Unchanged later) {failed : Nat} :
          (LogProgram.attempt call delay failed retries).Alone number post later :=
        ih (fun _ _ now onward => answered _ _ (same.trans now) (same.trans onward))
          (fun error _ onward => refused error _ (same.trans onward))
          (answered _ _ same (same.trans (still later)))
      refine ⟨?_, fun reason => again (.refl shelf)⟩
      cases result : (shelf.perform number call).1 with
      | ok value =>
          rw [result] at here
          exact here
      | error error =>
          simp only
          split
          · exact again (still shelf)
          · exact refused error _ (still shelf)

/-- What a program ensures comes about when it is run with such calls. -/
theorem Alone.run {perform : {β : Type} → LogCall β → Tap LogShelf × LogShelf →
      Except LogError β × (Tap LogShelf × LogShelf)}
    (fair : Fair number perform) {program : LogProgram α} {shelf : LogShelf} {tap : Tap LogShelf}
    (alone : program.Alone number post shelf) (apart : tap.intrusions = []) (clock : Nat) :
    post (program.run perform (tap, shelf) clock).1
        (program.run perform (tap, shelf) clock).2.1.2 ∧
      (program.run perform (tap, shelf) clock).2.1.1.intrusions = [] := by
  induction program generalizing shelf tap clock with
  | done result => exact ⟨alone, apart⟩
  | rest time next ih => exact ih alone apart _
  | ask call next ih =>
      obtain ⟨answered, refused⟩ := alone
      simp only [LogProgram.run]
      obtain same | ⟨reason, later, apart', same⟩ := fair call tap shelf apart
      · dsimp only at same
        rw [same]
        exact ih _ answered apart clock
      · dsimp only at same
        rw [same]
        exact ih _ (refused reason) apart' clock

theorem Alone.consult {replica : Replica} {program : LogProgram α} {shelf : LogShelf}
    (alone : program.Alone replica.store post shelf) (apart : replica.tap.intrusions = [])
    (isCutOff : Bool) (clock : Nat) :
    post (replica.consult isCutOff program shelf clock).result
        (replica.consult isCutOff program shelf clock).shelf ∧
      (replica.consult isCutOff program shelf clock).replica.tap.intrusions = [] := by
  refine Alone.run (fun call tap shelf apart => ?_) alone apart clock
  cases isCutOff with
  | true => exact Or.inr ⟨_, tap, apart, rfl⟩
  | false => exact Tap.fair_perform replica.store call tap shelf apart

end LogProgram

/-! ### Starting -/

/-- What becomes of what a log tells of its snapshot when replicas agree on manifests, one after the
other, that prefer such formats: each may have the snapshot converted to its format. -/
inductive Recast (isOnDisk : Bool) :
    List StateFormat → (before after : Except LogError (Option StateDocument)) → Prop
  | done {told : Except LogError (Option StateDocument)} : Recast isOnDisk [] told told
  | skip {format : StateFormat} {rest : List StateFormat}
      {told after : Except LogError (Option StateDocument)}
      (onward : Recast isOnDisk rest told after) :
      Recast isOnDisk (format :: rest) told after
  | convert {format : StateFormat} {rest : List StateFormat} {document converted : StateDocument}
      {after : Except LogError (Option StateDocument)}
      (reencoded : Manifest.reencode document format = .ok converted)
      (onward : Recast isOnDisk rest (converted.reread isOnDisk) after) :
      Recast isOnDisk (format :: rest) (.ok (some document)) after

/-- The first snapshot of a log: there was none. -/
def First (isOnDisk : Bool) (before after : Except LogError (Option StateDocument)) : Prop :=
  before = .ok none ∧
    ∃ root format position, after =
      (StateDocument.ofNode root format 1 position).reread isOnDisk

namespace Recast

variable {isOnDisk : Bool} {early late : List StateFormat}
  {first second third : Except LogError (Option StateDocument)}

theorem refl (formats : List StateFormat) (told : Except LogError (Option StateDocument)) :
    Recast isOnDisk formats told told := by
  induction formats with
  | nil => exact .done
  | cons format rest ih => exact .skip ih

theorem append (before : Recast isOnDisk early first second)
    (after : Recast isOnDisk late second third) : Recast isOnDisk (early ++ late) first third := by
  induction before with
  | done => exact after
  | skip onward ih => exact .skip (ih after)
  | convert reencoded onward ih => exact .convert reencoded (ih after)

/-- Where there is no snapshot in the end there was none to convert. -/
theorem eq_of_none (recast : Recast isOnDisk early first (.ok none)) : first = .ok none := by
  generalize told : (Except.ok none : Except LogError (Option StateDocument)) = last at recast
  induction recast with
  | done => rfl
  | skip onward ih => exact ih told
  | convert reencoded onward ih =>
      exact absurd ((ih told).trans told.symm) (StateDocument.reread_ne_none _ _)

end Recast

theorem First.trans {isOnDisk : Bool} {first second third : Except LogError (Option StateDocument)}
    (early : second = first ∨ First isOnDisk first second)
    (late : third = second ∨ First isOnDisk second third) :
    third = first ∨ First isOnDisk first third := by
  rcases early with rfl | ⟨absent, root, format, position, stored⟩
  · exact late
  · rcases late with rfl | ⟨gone, -⟩
    · exact Or.inr ⟨absent, root, format, position, stored⟩
    · exact absurd (stored.symm.trans gone) (StateDocument.reread_ne_none _ _)

/-- What becomes of the logs when sites get their first roots from them. -/
def LogShelf.Begins : LogShelf → LogShelf → Prop :=
  LogShelf.Rewrites fun isOnDisk before after => after = before ∨ First isOnDisk before after

theorem LogShelf.Begins.trans {before middle after : LogShelf} (early : before.Begins middle)
    (late : middle.Begins after) : before.Begins after :=
  ⟨early.records.trans late.records, fun number =>
    First.trans (early.snapshots number) (early.records.isOnDisk number ▸ late.snapshots number)⟩

theorem LogShelf.Unchanged.begins {before after : LogShelf} (same : before.Unchanged after) :
    before.Begins after :=
  same.rewrites fun _ _ => Or.inl rfl

theorem LogShelf.Begins.refl (shelf : LogShelf) : shelf.Begins shelf :=
  (LogShelf.Unchanged.refl shelf).begins

namespace ReplicaSettings

variable {settings : ReplicaSettings} {number : Nat} {shelf : LogShelf}

/-- A switch to another manifest stores the document that comes with it, or nothing. -/
theorem switchManifest_alone {stored : Manifest} {document : Option StateDocument} :
    (settings.switchManifest stored document).Alone number
      (fun _ later => LogShelf.Stores number document.toList shelf later) shelf := by
  generalize asked : LogCall.upgrade stored settings.manifest document = call
  have switched : LogShelf.Stores number document.toList shelf (shelf.perform number call).2 := by
    have spares : call.sparesRecords = true := asked ▸ rfl
    have stores := shelf.stores_perform number spares
    rw [← asked] at stores ⊢
    cases document <;> exact stores
  have spares : LogCall.sparesRecords .manifest = true := rfl
  have looked := switched.then
    ((shelf.perform number call).2.stores_perform number spares).unchanged
  unfold switchManifest
  rw [asked]
  apply LogProgram.Alone.recover
  refine ⟨?_, fun reason => .refl _ shelf⟩
  cases (shelf.perform number call).1 with
  | ok value => exact switched
  | error error =>
      cases error with
      | manifestMismatch found preferred =>
          refine ⟨?_, fun reason => switched⟩
          cases ((shelf.perform number call).2.perform number .manifest).1 with
          | error error => exact looked
          | ok now =>
              cases now with
              | none => exact looked
              | some now =>
                  dsimp only
                  split <;> exact looked
      | _ => exact switched

/-- A conversion that was stored. -/
theorem rewrites_of_stores {document converted : StateDocument} {before after : LogShelf}
    {format : StateFormat} (held : before.snapshot number = .ok (some document))
    (reencoded : Manifest.reencode document format = .ok converted)
    (stores : LogShelf.Stores number [converted] before after) :
    LogShelf.Rewrites (Recast · [format]) before after := by
  refine ⟨stores.records, fun other => ?_⟩
  rcases stores.snapshots other with same | ⟨alike, stored, member, told⟩
  · rw [same]
    exact .refl _ _
  · cases List.mem_singleton.mp member
    rw [alike, held, told]
    exact .convert reencoded .done

/-- To agree on a manifest changes nothing, apart from the format of snapshots. -/
theorem negotiate_alone :
    settings.negotiate.Alone number
      (fun _ later => LogShelf.Rewrites (Recast · [settings.preferredFormat]) shelf later)
      shelf := by
  have still {later : LogShelf} (same : shelf.Unchanged later) :
      LogShelf.Rewrites (Recast · [settings.preferredFormat]) shelf later :=
    same.rewrites fun _ told => .refl _ told
  apply LogProgram.Alone.bind
  refine LogProgram.alone_attempt rfl rfl (fun now later _ same => ?_)
    (fun error later same => still same)
  cases (now.perform number (.initializeManifest settings.manifest)).1 with
  | error error => exact still same
  | ok stored =>
      dsimp only
      split
      · exact still same
      split
      case isFalse => exact still same
      rename_i upgradable
      apply LogProgram.Alone.bind
      refine LogProgram.alone_attempt rfl rfl (fun now last before onward => ?_)
        (fun error last onward => still (same.trans onward))
      cases told : (now.perform number .state).1 with
      | error error => exact still (same.trans onward)
      | ok state =>
          have held := LogShelf.snapshot_of_perform told
          cases state with
          | none =>
              exact switchManifest_alone.weaken fun _ _ stores =>
                still ((same.trans onward).trans stores.unchanged)
          | some document =>
              apply LogProgram.Alone.bind
              have held : last.snapshot number = .ok (some document) := by
                rw [onward.snapshots number, ← before.snapshots number, held]
              cases made : settings.manifest.upgradeFrom stored document with
              | error error => exact still (same.trans onward)
              | ok converted =>
                  have reencoded : Manifest.reencode document settings.preferredFormat =
                      .ok converted := by
                    rwa [Manifest.upgradeFrom, if_pos upgradable] at made
                  exact switchManifest_alone.weaken fun _ _ stores =>
                    (same.trans onward).then (rewrites_of_stores held reencoded stores)

/-- To look for a snapshot changes nothing. -/
theorem loadState_alone :
    settings.loadState.Alone number (fun _ later => shelf.Unchanged later) shelf :=
  LogProgram.alone_attempt rfl rfl (fun _ _ _ same => same) (fun _ _ same => same)

theorem begins_of_first {root : Node} {format : StateFormat} {position : Nat} :
    shelf.Begins
      (shelf.perform number (.replaceState none (.ofNode root format 1 position))).2 := by
  rcases shelf.perform_first_cases number (.ofNode root format 1 position) with absent | same
  · have spares :
        (LogCall.replaceState none (.ofNode root format 1 position)).sparesRecords = true := rfl
    have stores := shelf.stores_perform number spares
    refine ⟨stores.records, fun other => (stores.snapshots other).imp_right ?_⟩
    rintro ⟨alike, stored, member, told⟩
    cases List.mem_singleton.mp member
    exact ⟨alike.trans absent, root, format, position, told⟩
  · exact same.begins

/-- A root is stored as the first snapshot where there is none. -/
theorem storeFirst_alone {root : Node} :
    (settings.storeFirst root).Alone number (fun _ later => shelf.Begins later) shelf := by
  apply LogProgram.Alone.bind
  refine LogProgram.alone_attempt rfl rfl (fun now later _ same => ?_)
    (fun error later same => same.begins)
  cases (now.perform number .head).1 with
  | error error => exact same.begins
  | ok head =>
      generalize asked : LogCall.replaceState none
        (StateDocument.ofNode root settings.manifest.format 1 head) = call
      have stored : shelf.Begins (later.perform number call).2 :=
        same.begins.trans (asked ▸ begins_of_first)
      have spares : LogCall.sparesRecords .state = true := rfl
      have looked := stored.trans
        ((later.perform number call).2.stores_perform number spares).unchanged.begins
      dsimp only
      rw [asked]
      apply LogProgram.Alone.recover
      refine ⟨?_, fun reason => same.begins⟩
      cases (later.perform number call).1 with
      | ok value => exact stored
      | error error =>
          cases error with
          | revisionConflict expected actual => exact ⟨looked, fun reason => stored⟩
          | _ => exact stored

end ReplicaSettings

end StateTree
