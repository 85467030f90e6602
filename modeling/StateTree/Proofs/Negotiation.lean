/-
Module: StateTree.Proofs.Negotiation
Purpose: What agreeing on a manifest does to a log. Either the log has the preferred manifest then,
  and its snapshot stands for the same tree, or it is as it was.
-/
import StateTree.Proofs.Outcomes
import StateTree.Proofs.Replication

namespace StateTree

/-! ### Converting documents -/

namespace Manifest

/-- A document in another format: the same tree, one revision later. -/
theorem reencode_eq {document : StateDocument} {root : Node} (read : document.node? = some root)
    (format : StateFormat) : reencode document format =
      .ok (.ofNode root format (document.revision + 1) document.position) := by
  rw [reencode, read]

theorem canUpgrade_iff {preferred stored : Manifest} :
    preferred.canUpgrade stored = true ↔ stored.version = preferred.version :=
  beq_iff_eq

theorem upgradeFrom_eq {preferred stored : Manifest} (same : stored.version = preferred.version)
    (document : StateDocument) :
    preferred.upgradeFrom stored document = reencode document preferred.format := by
  rw [upgradeFrom, if_pos (canUpgrade_iff.mpr same)]

theorem downgradeTo_eq {preferred target : Manifest} (same : target.version = preferred.version)
    (document : StateDocument) :
    preferred.downgradeTo target document = reencode document target.format := by
  rw [downgradeTo, if_pos (canUpgrade_iff.mpr same)]

end Manifest

/-- A document of a tree that its format holds is read as this tree. -/
theorem StateDocument.node?_ofNode {root : Node} {format : StateFormat} (regular : root.Regular)
    (holds : format.Holds root) (revision position : Nat) :
    (StateDocument.ofNode root format revision position).node? = some root :=
  StateFormat.decode?_encode regular holds

/-- A document that is converted and converted back is the same but for its revision, when it was in
the format of its manifest. -/
theorem Manifest.downgradeTo_upgradeFrom {preferred target : Manifest}
    (same : target.version = preferred.version) {document : StateDocument} {root : Node}
    (read : document.node? = some root) (regular : root.Regular)
    (holds : preferred.format.Holds root) (holds' : target.format.Holds root) :
    ∃ upgraded downgraded, preferred.upgradeFrom target document = .ok upgraded ∧
      preferred.downgradeTo target upgraded = .ok downgraded ∧
        downgraded.node? = some root ∧ downgraded.position = document.position := by
  have again := StateDocument.node?_ofNode regular holds (document.revision + 1) document.position
  refine ⟨_, _, (upgradeFrom_eq same document).trans (reencode_eq read _),
    (downgradeTo_eq same _).trans (reencode_eq again _), ?_, rfl⟩
  exact StateDocument.node?_ofNode regular holds' _ _

/-! ### Calls -/

namespace LogShelf

variable {shelf : LogShelf} {number : Nat} {log : MemoryLog}

/-- The stored manifest of a log. -/
def manifest? (shelf : LogShelf) (number : Nat) : Except LogError (Option Manifest) :=
  match shelf.stores[number]? with
  | some (.memory log) => .ok log.manifest
  | some (.file _ place) => FileLog.readManifest (shelf.directory place)
  | none => .error .io

theorem Shows.manifest?_eq (shows : shelf.Shows number log) :
    shelf.manifest? number = .ok log.manifest := by
  cases shows with
  | memory there => rw [manifest?, there]
  | file there inside mirrors orderly =>
      rw [manifest?, there]
      exact FileLog.readManifest_eq mirrors.sound mirrors.manifest orderly.manifest

/-- A manifest that is stored stays, and so does all else. -/
theorem Shows.perform_initialize {stored : Manifest} (shows : shelf.Shows number log)
    (there : log.manifest = some stored) (new : Manifest) (word : new.version < UInt32.size) :
    shelf.perform number (.initializeManifest new) = (.ok stored, shelf) := by
  have answered := (shows.perform (.initializeManifest new) fun _ => word).1
  rw [MemoryLog.answer, there, Option.getD_some] at answered
  refine Prod.ext answered (perform_of_still (fun held same => ?_) (fun file place same => ?_))
  · cases shows with
    | memory other available =>
        cases same.symm.trans other
        rw [MemoryLog.perform, available]
        simp only [MemoryLog.answer, there, Option.getD_some]
        rw [← there]
    | file other => cases same.symm.trans other
  · have read := shows.manifest?_eq
    rw [manifest?, same, there] at read
    simp only at read
    rw [FileLog.perform, read]

/-- Where there is no manifest the one that is offered is stored. -/
theorem Shows.perform_first (shows : shelf.Shows number log) (absent : log.manifest = none)
    (new : Manifest) (word : new.version < UInt32.size) :
    ∃ after, shelf.perform number (.initializeManifest new) = (.ok new, after) ∧
      after.Shows number { log with manifest := some new } := by
  obtain ⟨answered, after⟩ := shows.perform (.initializeManifest new) fun _ => word
  rw [MemoryLog.answer, absent, Option.getD_none] at answered after
  exact ⟨_, Prod.ext answered rfl, after⟩

/-- A switch from the stored manifest to another one. -/
theorem Shows.perform_upgrade {stored new : Manifest} {document : Option StateDocument}
    (shows : shelf.Shows number log) (there : log.manifest = some stored)
    (takes : shelf.Takes number (.upgrade stored new document) log) :
    ∃ after, shelf.perform number (.upgrade stored new document) = (.ok (), after) ∧
      after.Shows number { log with manifest := some new, state := document.or log.state } := by
  obtain ⟨answered, after⟩ := shows.perform (.upgrade stored new document) takes
  rw [MemoryLog.answer, if_pos there] at answered after
  exact ⟨_, Prod.ext answered rfl, after⟩

end LogShelf

/-! ### Agreeing on a manifest -/

/-- What a log holds when a manifest has been agreed on. -/
inductive MemoryLog.Adopts (preferred : Manifest) (log : MemoryLog) : MemoryLog → Prop
  /-- There was no manifest. -/
  | first (absent : log.manifest = none) :
      Adopts preferred log { log with manifest := some preferred }
  /-- It was the manifest already. -/
  | same (there : log.manifest = some preferred) : Adopts preferred log log
  /-- Another manifest has been replaced, and there was no snapshot. -/
  | switched {stored : Manifest} (there : log.manifest = some stored) (differs : stored ≠ preferred)
      (version : stored.version = preferred.version) (empty : log.state = none) :
      Adopts preferred log { log with manifest := some preferred }
  /-- Another manifest has been replaced, and the snapshot with it. -/
  | converted {stored : Manifest} {document : StateDocument} {root : Node}
      (there : log.manifest = some stored) (differs : stored ≠ preferred)
      (version : stored.version = preferred.version) (held : log.state = some document)
      (read : document.node? = some root) :
      Adopts preferred log
        { log with
          manifest := some preferred
          state := some (.ofNode root preferred.format (document.revision + 1) document.position) }

namespace ReplicaSettings

variable {settings : ReplicaSettings} {number : Nat} {shelf later : LogShelf} {log : MemoryLog}
  {stored : Manifest} (shows : shelf.Shows number log)

theorem word_manifest (settings : ReplicaSettings) : settings.manifest.version < UInt32.size :=
  show 1 < UInt32.size by decide

section Switch

variable {document : Option StateDocument} (there : log.manifest = some stored)
  (takes : ∀ snapshot ∈ document, shelf.isOnDisk number = true → snapshot.Storable)

include shows there takes

theorem perform_switch (settings : ReplicaSettings) : ∃ after,
    shelf.perform number (.upgrade stored settings.manifest document) = (.ok (), after) ∧
      after.Shows number
        { log with manifest := some settings.manifest, state := document.or log.state } :=
  shows.perform_upgrade there fun onDisk =>
    ⟨settings.word_manifest, fun snapshot member => takes snapshot member onDisk⟩

theorem run_switchManifest (clock : Nat) :
    ((settings.switchManifest stored document).run (LogShelf.perform number) shelf clock).1 =
      .ok () := by
  obtain ⟨after, performed, -⟩ := perform_switch shows there takes settings
  rw [switchManifest, LogProgram.run_recover, LogProgram.call, LogProgram.run, performed]
  rfl

/-- A switch comes about, or it fails and has no effect. When it is refused as if the manifest were
another one, the manifest that is found then is not the preferred one either. -/
theorem switchManifest_cases (differs : stored ≠ settings.manifest) {result : Except LogError Unit}
    (ends : (settings.switchManifest stored document).Ends number shelf result later) :
    (∃ error, result = .error error) ∧ later = shelf ∨ result = .ok () ∧
      later.Shows number
        { log with manifest := some settings.manifest, state := document.or log.state } := by
  obtain ⟨after, performed, afterShows⟩ := perform_switch shows there takes settings
  have looked : shelf.perform number .manifest = (.ok (some stored), shelf) :=
    Prod.ext ((shows.perform .manifest fun _ => trivial).1.trans (congrArg _ there))
      (shows.perform_looks rfl)
  obtain ⟨switched, middle, called, onward⟩ := ends.recover_cases
  rcases called.call_cases with same | ⟨⟨error, rfl⟩, rfl⟩
  · cases same.trans performed
    obtain ⟨rfl, rfl⟩ := onward
    exact Or.inr ⟨rfl, afterShows⟩
  · refine Or.inl ?_
    cases error with
    | manifestMismatch found preferred =>
        cases onward with
        | answered onward =>
            rw [looked] at onward
            simp only [if_neg differs] at onward
            cases onward
            exact ⟨⟨_, rfl⟩, rfl⟩
        | failed error onward =>
            cases onward
            exact ⟨⟨_, rfl⟩, rfl⟩
    | _ =>
        cases onward
        exact ⟨⟨_, rfl⟩, rfl⟩

end Switch

/-- The manifest of a log, if there is one, is the preferred one; or it is of the version that is
understood, and the snapshot, if there is one, decodes. -/
def Accepts (settings : ReplicaSettings) (log : MemoryLog) : Prop :=
  ∀ stored ∈ log.manifest, stored = settings.manifest ∨
    stored.version = Manifest.currentVersion ∧ ∀ document ∈ log.state, document.node? ≠ none

/-- The rest of an agreement, when another manifest of the same version is stored. -/
def convert (settings : ReplicaSettings) (stored : Manifest) : LogProgram Unit := do
  let state ← settings.attempt .state
  match state with
  | none => settings.switchManifest stored none
  | some document => do
      let converted ← LogProgram.ofExcept (settings.manifest.upgradeFrom stored document)
      settings.switchManifest stored (some converted)

/-- What a snapshot is converted to can be read back. -/
def Converts (settings : ReplicaSettings) (number : Nat) (shelf : LogShelf) (log : MemoryLog) :
    Prop :=
  ∀ document ∈ log.state, ∀ root, document.node? = some root → shelf.isOnDisk number = true →
    (StateDocument.ofNode root settings.preferredFormat (document.revision + 1)
      document.position).Storable

variable (converts : settings.Converts number shelf log)

include shows converts

/-- A conversion to the preferred manifest fails with no effect, or the snapshot, if there is one,
can be read and is converted. -/
theorem convert_cases (there : log.manifest = some stored) (differs : stored ≠ settings.manifest)
    (version : stored.version = settings.manifest.version) {result : Except LogError Unit}
    (ends : (settings.convert stored).Ends number shelf result later) :
    (∃ error, result = .error error) ∧ later = shelf ∨ result = .ok () ∧ settings.Accepts log ∧
      ∃ left, log.Adopts settings.manifest left ∧ later.Shows number left := by
  have accepts (decodes : ∀ document ∈ log.state, document.node? ≠ none) :
      settings.Accepts log := by
    intro other same
    cases there.symm.trans same
    exact Or.inr ⟨version, decodes⟩
  obtain ⟨read, between, looked, further⟩ := ends.bind_cases
  rcases looked.attempt_cases shows.perform_state with ⟨rfl, rfl⟩ | ⟨⟨error, rfl⟩, rfl⟩
  case inr =>
    obtain ⟨rfl, rfl⟩ := further
    exact Or.inl ⟨⟨_, rfl⟩, rfl⟩
  cases held : log.state with
  | none =>
      rw [held] at further accepts
      refine (switchManifest_cases shows there ?_ differs further).imp_right ?_
      · rintro _ ⟨⟩
      · rintro ⟨rfl, after⟩
        refine ⟨rfl, accepts fun _ member => ?_, _, .switched there differs version held, after⟩
        cases member
  | some document =>
      rw [held] at further accepts
      -- A document that cannot be read ends this before anything is written.
      obtain ⟨made, last, converted, switched⟩ := LogProgram.Ends.bind_cases further
      cases converted
      rw [Manifest.upgradeFrom_eq version] at switched
      cases decoded : document.node? with
      | none =>
          rw [Manifest.reencode, decoded] at switched
          obtain ⟨rfl, rfl⟩ := switched
          exact Or.inl ⟨⟨_, rfl⟩, rfl⟩
      | some root =>
          rw [Manifest.reencode_eq decoded] at switched
          refine (switchManifest_cases shows there ?_ differs switched).imp_right ?_
          · rintro snapshot ⟨⟩ onDisk
            exact converts document held root decoded onDisk
          · rintro ⟨rfl, after⟩
            refine ⟨rfl, accepts ?_, _, .converted there differs version held decoded, after⟩
            rintro other ⟨⟩
            rw [decoded]
            exact Option.some_ne_none root

/-- An agreement on a manifest fails with no effect, or the log is acceptable and adopts the
preferred manifest. -/
theorem negotiate_cases {result : Except LogError Unit}
    (ends : settings.negotiate.Ends number shelf result later) :
    (∃ error, result = .error error) ∧ later = shelf ∨ result = .ok () ∧ settings.Accepts log ∧
      ∃ left, log.Adopts settings.manifest left ∧ later.Shows number left := by
  obtain ⟨found, middle, attempted, onward⟩ := ends.bind_cases
  cases manifest : log.manifest with
  | none =>
      obtain ⟨after, performed, afterShows⟩ :=
        shows.perform_first manifest settings.manifest settings.word_manifest
      rcases attempted.attempt_cases performed with ⟨rfl, rfl⟩ | ⟨⟨error, rfl⟩, rfl⟩
      · simp only [if_true] at onward
        cases onward
        refine Or.inr ⟨rfl, fun stored there => ?_, _, .first manifest, afterShows⟩
        cases manifest.symm.trans there
      · obtain ⟨rfl, rfl⟩ := onward
        exact Or.inl ⟨⟨_, rfl⟩, rfl⟩
  | some stored =>
      have performed := shows.perform_initialize manifest settings.manifest settings.word_manifest
      rcases attempted.attempt_cases performed with ⟨rfl, rfl⟩ | ⟨⟨error, rfl⟩, rfl⟩
      case inr =>
        obtain ⟨rfl, rfl⟩ := onward
        exact Or.inl ⟨⟨_, rfl⟩, rfl⟩
      by_cases same : stored = settings.manifest
      · simp only [if_pos same] at onward
        cases onward
        subst same
        refine Or.inr ⟨rfl, fun other there => ?_, _, .same manifest, shows⟩
        cases manifest.symm.trans there
        exact Or.inl rfl
      · simp only [if_neg same] at onward
        by_cases version : stored.version = settings.manifest.version
        · rw [if_pos (Manifest.canUpgrade_iff.mpr version)] at onward
          exact convert_cases shows converts manifest same version onward
        · rw [if_neg (mt Manifest.canUpgrade_iff.mp version)] at onward
          cases onward
          exact Or.inl ⟨⟨_, rfl⟩, rfl⟩

/-- When no call fails, replicas agree with a log that they can accept. -/
theorem run_negotiate (accepts : settings.Accepts log) (clock : Nat) :
    (settings.negotiate.run (LogShelf.perform number) shelf clock).1 = .ok () := by
  rw [negotiate, LogProgram.run_bind, attempt]
  cases manifest : log.manifest with
  | none =>
      obtain ⟨after, performed, -⟩ :=
        shows.perform_first manifest settings.manifest settings.word_manifest
      rw [LogProgram.run_attempt_ok performed]
      dsimp only
      rw [if_pos rfl]
      rfl
  | some stored =>
      have performed := shows.perform_initialize manifest settings.manifest settings.word_manifest
      rw [LogProgram.run_attempt_ok performed]
      dsimp only
      by_cases same : stored = settings.manifest
      · rw [if_pos same]
        rfl
      obtain ⟨version, decodes⟩ := (accepts stored manifest).resolve_left same
      rw [if_neg same, if_pos (Manifest.canUpgrade_iff.mpr version), LogProgram.run_bind, attempt,
        LogProgram.run_attempt_ok shows.perform_state]
      cases held : log.state with
      | none =>
          refine run_switchManifest shows manifest ?_ clock
          rintro _ ⟨⟩
      | some document =>
          obtain ⟨root, decoded⟩ := Option.ne_none_iff_exists'.mp (decodes document held)
          dsimp only
          rw [Manifest.upgradeFrom_eq version, Manifest.reencode_eq decoded, LogProgram.run_bind]
          refine run_switchManifest shows manifest ?_ clock
          rintro snapshot ⟨⟩ onDisk
          exact converts document held root decoded onDisk

end ReplicaSettings

/-! ### What an agreement keeps -/

/-- A snapshot stands for the same tree as another one, of the same position. It is that one where
the preferred manifest was stored, or none; elsewhere it is in the preferred format, one revision
later. Its revision is a word of 64 bits while the one after the old one is, be it on disk, where
nothing else can be stored, or in memory. -/
structure StateDocument.Restates (preferred : Manifest) (stored : Option Manifest)
    (old new : StateDocument) : Prop where
  node? : new.node? = old.node?
  position : new.position = old.position
  untouched : stored.getD preferred = preferred → new = old
  converted : stored.getD preferred ≠ preferred →
    new.format = preferred.format ∧ new.revision = old.revision + 1
  word : old.revision + 1 < UInt64.size → new.revision < UInt64.size

/-- There was no snapshot and there is none, or the snapshot stands for what the one before did. -/
def MemoryLog.Keeps (log : MemoryLog) (preferred : Manifest) (state : Option StateDocument) :
    Prop :=
  log.state = none ∧ state = none ∨ ∃ old new, log.state = some old ∧ state = some new ∧
    StateDocument.Restates preferred log.manifest old new

/-- A log that has adopted a manifest has the same records, and a snapshot that stands for the
same. -/
theorem MemoryLog.Adopts.keeps {preferred : Manifest} {log left : MemoryLog}
    (adopts : log.Adopts preferred left)
    (trees : ∀ document ∈ log.state, ∀ root, document.node? = some root →
      root.Regular ∧ preferred.format.Holds root) :
    left.manifest = some preferred ∧ left.first = log.first ∧ left.records = log.records ∧
      log.Keeps preferred left.state := by
  have still (same : log.manifest.getD preferred = preferred) : log.Keeps preferred log.state := by
    cases held : log.state with
    | none => exact Or.inl ⟨held, rfl⟩
    | some document =>
        exact Or.inr ⟨document, document, held, rfl, rfl, rfl, fun _ => rfl,
          fun other => absurd same other, Nat.lt_of_succ_lt⟩
  cases adopts with
  | first absent => exact ⟨rfl, rfl, rfl, still (by rw [absent]; rfl)⟩
  | same there => exact ⟨there, rfl, rfl, still (by rw [there]; rfl)⟩
  | switched there differs version empty => exact ⟨rfl, rfl, rfl, Or.inl ⟨empty, empty⟩⟩
  | converted there differs version held read =>
      obtain ⟨regular, holds⟩ := trees _ held _ read
      have back := StateDocument.node?_ofNode regular holds
      refine ⟨rfl, rfl, rfl, Or.inr ⟨_, _, held, rfl, (back _ _).trans read.symm, rfl, ?_,
        fun _ => ⟨rfl, rfl⟩, id⟩⟩
      rw [there]
      exact fun same => absurd same differs

/-- An agreement on a manifest keeps the state of a log or changes nothing. It comes about exactly
where the log is acceptable, and a document that is converted can be converted back. -/
theorem ReplicaSettings.negotiate_keeps {settings : ReplicaSettings} {number : Nat}
    {shelf : LogShelf} {log : MemoryLog} (shows : shelf.Shows number log)
    (trees : ∀ document ∈ log.state, ∀ root, document.node? = some root →
      root.Regular ∧ settings.preferredFormat.Holds root)
    (converts : settings.Converts number shelf log) :
    (∀ result later, settings.negotiate.Ends number shelf result later →
      (∃ error, result = .error error) ∧ later = shelf ∨
        result = .ok () ∧ later.manifest? number = .ok (some settings.manifest) ∧
          later.retained number = shelf.retained number ∧
            ∃ state, later.snapshot number = .ok state ∧ log.Keeps settings.manifest state) ∧
    (∀ clock, (settings.Accepts log →
        (settings.negotiate.run (LogShelf.perform number) shelf clock).1 = .ok ()) ∧
      (¬ settings.Accepts log →
        (∃ error, (settings.negotiate.run (LogShelf.perform number) shelf clock).1 = .error error) ∧
          (settings.negotiate.run (LogShelf.perform number) shelf clock).2.1 = shelf)) ∧
    ∀ (target : Manifest) (document : StateDocument) (root : Node),
      target.version = settings.manifest.version → document.node? = some root → root.Regular →
        settings.preferredFormat.Holds root → target.format.Holds root →
          ∃ upgraded downgraded, settings.manifest.upgradeFrom target document = .ok upgraded ∧
            settings.manifest.downgradeTo target upgraded = .ok downgraded ∧
              downgraded.node? = some root ∧ downgraded.position = document.position := by
  refine ⟨fun result later ends => ?_, fun clock => ⟨fun accepts =>
    run_negotiate shows converts accepts clock, fun refuses => ?_⟩,
    fun target document root same read regular holds holds' =>
      Manifest.downgradeTo_upgradeFrom same read regular holds holds'⟩
  · refine (negotiate_cases shows converts ends).imp_right ?_
    rintro ⟨rfl, -, left, adopts, after⟩
    obtain ⟨manifest, first, records, keeps⟩ := adopts.keeps trees
    refine ⟨rfl, ?_, ?_, _, after.snapshot_eq, keeps⟩
    · rw [after.manifest?_eq, manifest]
    · rw [after.retained_eq, shows.retained_eq, first, records]
  · have ends : settings.negotiate.Ends number shelf _ _ :=
      LogProgram.ends_run settings.negotiate shelf clock
    exact (negotiate_cases shows converts ends).resolve_right fun ⟨_, accepts, _⟩ => refuses accepts

namespace Sample

/-- Replicas that prefer octets. -/
def packing : ReplicaSettings := { ReplicaSettings.standard with preferredFormat := .binary }

/-- A log under the manifest of JSON, with a snapshot in it. -/
def printed : List StoreEvent := .ask (.initializeManifest (.new .json)) :: ahead

/-- The log in memory then. -/
def printedLog : MemoryLog := printed.foldl MemoryLog.after .empty

/-- What is computed of the sample: its texts can be counted. -/
theorem computed_printed :
    snapshot.bytes.length < UInt64.size ∧ StateFormat.json.Holds tree ∧
      StateFormat.binary.Holds tree ∧
      (StateDocument.ofNode tree .binary 2 3).bytes.length < UInt64.size := by
  decide +kernel

theorem disciplined_printed : MemoryLog.empty.Disciplined printed :=
  ⟨packing.word_manifest, trivial, ⟨by decide, trivial, by decide⟩, trivial,
    ⟨by decide, trivial, by decide⟩, trivial, ⟨by decide, trivial, by decide⟩, trivial,
    ⟨by decide, by decide, computed_printed.1⟩, fun _ => ⟨by decide, by decide⟩, trivial⟩

theorem node?_snapshot : snapshot.node? = some tree :=
  StateDocument.node?_ofNode regular_tree computed_printed.2.1 1 3

/-- The snapshot in a directory is converted to octets. -/
theorem printed_packed : ∃ start answers store, FileStore.opened .standard .absent = .ok start ∧
    start.run printed = .ok (answers, store) ∧
      let shelf : LogShelf := ⟨[.file store.log 0], [store.directory], []⟩
      let later := (packing.negotiate.run (LogShelf.perform 0) shelf 0).2.1
      later.manifest? 0 = .ok (some (.new .binary)) ∧
        ∃ latest, later.snapshot 0 = .ok (some latest) ∧ latest.node? = some tree ∧
          latest.format = .binary ∧ latest.revision = 2 ∧ latest.position = 3 := by
  have empty : Directory.absent.entries = [] := rfl
  obtain ⟨start, answers, store, opens, ran, shows⟩ :=
    LogShelf.shows_of_run .standard empty disciplined_printed
  refine ⟨start, answers, store, opens, ran, ?_⟩
  change LogShelf.Shows 0 printedLog _ at shows
  generalize (⟨[.file store.log 0], [store.directory], []⟩ : LogShelf) = shelf at shows
  have held : printedLog.state = some snapshot := rfl
  have manifest : printedLog.manifest = some (.new .json) := rfl
  have only (document : StateDocument) (member : document ∈ printedLog.state) (root : Node)
      (read : document.node? = some root) : document = snapshot ∧ root = tree := by
    cases held.symm.trans member
    exact ⟨rfl, Option.some.inj (read.symm.trans node?_snapshot)⟩
  obtain ⟨-, -, holds, counted⟩ := computed_printed
  have short : (StateDocument.ofNode tree .binary 2 3).Storable := ⟨by decide, by decide, counted⟩
  have converts : packing.Converts 0 shelf printedLog := by
    intro document member root read _
    obtain ⟨rfl, rfl⟩ := only document member root read
    exact short
  have trees : ∀ document ∈ printedLog.state, ∀ root, document.node? = some root →
      root.Regular ∧ StateFormat.binary.Holds root := by
    intro document member root read
    obtain ⟨-, rfl⟩ := only document member root read
    exact ⟨regular_tree, holds⟩
  obtain ⟨keeps, comes, -⟩ := ReplicaSettings.negotiate_keeps shows trees converts
  have accepts : packing.Accepts printedLog := by
    rintro stored ⟨⟩
    refine Or.inr ⟨rfl, fun document member => ?_⟩
    cases held.symm.trans member
    rw [node?_snapshot]
    nofun
  have ended := (comes 0).1 accepts
  obtain ⟨⟨error, failed⟩, -⟩ | ⟨-, stored, -, state, told, kept⟩ :=
    keeps _ _ (LogProgram.ends_run _ _ 0)
  · cases ended.symm.trans failed
  · obtain ⟨absent, -⟩ | ⟨old, new, before, rfl, restates⟩ := kept
    · cases held.symm.trans absent
    · cases held.symm.trans before
      have other : printedLog.manifest.getD packing.manifest ≠ packing.manifest := by
        rw [manifest]
        decide
      obtain ⟨format, revision⟩ := restates.converted other
      exact ⟨stored, new, told, restates.node?.trans node?_snapshot, format, revision,
        restates.position⟩

end Sample

end StateTree
