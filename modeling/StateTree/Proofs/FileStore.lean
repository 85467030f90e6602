/-
Module: StateTree.Proofs.FileStore
Purpose: A log in a directory does what a log in memory does. Whatever it is asked, as long as the
  snapshots stored in it are of positions that it knows, its answers are the same, also when it is
  closed and opened again in between.
-/
import StateTree.Log.File
import StateTree.Log.Memory
import StateTree.Proofs.Directories
import StateTree.Proofs.Segment

namespace StateTree

/-- A log that is open, with its directory. -/
structure FileStore where
  log : FileLog
  directory : Directory

/-- What happens to a log. -/
inductive StoreEvent : Type 1 where
  | ask {α : Type} (call : LogCall α)
  /-- The log is closed and opened again. -/
  | reopen (config : FileLogConfig)

/-- A call with the answer to it. -/
structure Answered : Type 1 where
  {α : Type}
  call : LogCall α
  result : Except LogError α

namespace FileStore

/-- Open the log of a directory. -/
def opened (config : FileLogConfig) (directory : Directory) : Except LogError FileStore :=
  match FileLog.openIn config directory with
  | (.ok log, directory) => .ok ⟨log, directory⟩
  | (.error error, _) => .error error

/-- Have the log answer a call. -/
def perform (store : FileStore) {α : Type} (call : LogCall α) : Except LogError α × FileStore :=
  let (result, log, directory) := store.log.perform store.directory call
  (result, ⟨log, directory⟩)

/-- The answers to what a log is asked, and the log then; an error when it cannot be opened. -/
def run : FileStore → List StoreEvent → Except LogError (List Answered × FileStore)
  | store, [] => .ok ([], store)
  | store, .ask call :: rest =>
      (run (store.perform call).2 rest).map fun (answers, after) =>
        (⟨call, (store.perform call).1⟩ :: answers, after)
  | store, .reopen config :: rest =>
      match opened config store.directory with
      | .ok again => run again rest
      | .error error => .error error

end FileStore

namespace MemoryLog

/-- The log after an event. That it is opened again it does not notice. -/
def after (log : MemoryLog) : StoreEvent → MemoryLog
  | .ask call => (log.perform call).2
  | .reopen _ => log

/-- The answers to what a log is asked. -/
def answers : MemoryLog → List StoreEvent → List Answered
  | _, [] => []
  | log, .ask call :: rest => ⟨call, (log.perform call).1⟩ :: answers (log.perform call).2 rest
  | log, .reopen _ :: rest => answers log rest

end MemoryLog

/-! ### What a log may be asked -/

/-- What a call gives a log with a head can be read back from a file. -/
def LogCall.Storable (head : Nat) {α : Type} : LogCall α → Prop
  | .initializeManifest new => new.version < UInt32.size
  | .replaceState _ document => document.Storable
  | .upgrade _ new document => new.version < UInt32.size ∧ ∀ snapshot ∈ document, snapshot.Storable
  | .append correlation body => LogRecord.Storable ⟨head, correlation, body⟩
  | _ => True

/-- The position of a snapshot is between the first retained record and the head. -/
def MemoryLog.Knows (log : MemoryLog) (document : StateDocument) : Prop :=
  log.first ≤ document.position ∧ document.position ≤ log.head

/-- A call stores no snapshot but one of a known position, and drops only records that the stored
one covers. -/
def LogCall.Covered (log : MemoryLog) {α : Type} : LogCall α → Prop
  | .replaceState expected document =>
      log.state.map StateDocument.revision = expected → log.Knows document
  | .upgrade expected _ document =>
      log.manifest = some expected → ∀ snapshot ∈ document, log.Knows snapshot
  | .discardBefore position => ∃ document ∈ log.state, position ≤ document.position
  | _ => True

/-- Every call among events is one that the log may be asked then. -/
def MemoryLog.Disciplined : MemoryLog → List StoreEvent → Prop
  | _, [] => True
  | log, .ask call :: rest =>
      call.Storable log.head ∧ call.Covered log ∧ (log.perform call).2.Disciplined rest
  | log, .reopen _ :: rest => log.Disciplined rest

namespace MemoryLog

section Numbered

variable {log : MemoryLog}

/-- The records are numbered one after the other from the first retained one on. -/
def Numbered (log : MemoryLog) : Prop :=
  log.records.reverse.map LogRecord.number = List.range' log.first log.records.length

theorem Numbered.head_eq (numbered : log.Numbered) : log.head = log.first + log.records.length := by
  unfold Numbered at numbered
  unfold head
  cases held : log.records with
  | nil => rfl
  | cons latest earlier =>
      rw [held, List.reverse_cons, List.map_append, List.length_cons,
        List.range'_concat] at numbered
      have last := List.append_inj_right' numbered rfl
      simp only [List.map_cons, List.map_nil, List.cons.injEq, and_true, Nat.one_mul] at last
      simp only [last, List.length_cons]
      omega

/-- The records from a position on are those that are left when the earlier ones are dropped. -/
theorem Numbered.since_eq_drop (numbered : log.Numbered) {position : Nat}
    (retained : log.first ≤ position) :
    log.since position = log.records.reverse.drop (position - log.first) := by
  have head := numbered.head_eq
  rw [since, List.reverse_take]
  by_cases inside : position ≤ log.head
  · congr 1
    omega
  · rw [List.drop_eq_nil_of_le (by rw [List.length_reverse]; omega),
      List.drop_eq_nil_of_le (by rw [List.length_reverse]; omega)]

/-- A call leaves the records numbered one after the other. -/
theorem Numbered.answer (numbered : log.Numbered) {α : Type} (call : LogCall α) :
    (log.answer call).2.Numbered := by
  have head := numbered.head_eq
  cases call with
  | replaceState expected document =>
      simp only [MemoryLog.answer]
      split <;> exact numbered
  | upgrade expected manifest document =>
      simp only [MemoryLog.answer]
      split <;> exact numbered
  | readFrom position =>
      simp only [MemoryLog.answer]
      split <;> exact numbered
  | append correlation body =>
      change ((⟨log.head, correlation, body⟩ : LogRecord) :: log.records).reverse.map _ =
        List.range' log.first (log.records.length + 1)
      rw [List.reverse_cons, List.map_append, numbered, List.range'_concat, Nat.one_mul, ← head]
      rfl
  | discardBefore position =>
      have retained : log.first ≤ max log.first (min position log.head) := Nat.le_max_left _ _
      have left := numbered.since_eq_drop retained
      rw [since] at left
      simp only [MemoryLog.answer, Numbered]
      generalize max log.first (min position log.head) = kept at *
      have length := congrArg List.length left
      rw [List.length_reverse, List.length_drop, List.length_reverse] at length
      rw [left, List.map_drop, numbered, List.drop_range', length, Nat.mul_one,
        Nat.add_sub_of_le retained]
  | _ => exact numbered

end Numbered

/-- A log that a directory can hold. -/
structure Orderly (log : MemoryLog) : Prop where
  available : log.failures = 0
  numbered : log.records.reverse.map LogRecord.number = List.range' log.first log.records.length
  manifest : ∀ manifest ∈ log.manifest, manifest.version < UInt32.size
  state : ∀ document ∈ log.state, document.Storable
  records : ∀ record ∈ log.records, record.Storable

/-- A log that can be told from its snapshot and its records. Nothing is dropped before there is a
snapshot. -/
structure Covered (log : MemoryLog) : Prop where
  known : ∀ document ∈ log.state, log.Knows document
  whole : log.state = none → log.first = 0

variable {log : MemoryLog}

theorem orderly_empty : empty.Orderly := ⟨rfl, rfl, nofun, nofun, nofun⟩

theorem covered_empty : empty.Covered := ⟨nofun, fun _ => rfl⟩

theorem Orderly.perform_eq (orderly : log.Orderly) {α : Type} (call : LogCall α) :
    log.perform call = log.answer call := by
  rw [perform, orderly.available]

theorem Orderly.head_eq (orderly : log.Orderly) : log.head = log.first + log.records.length :=
  Numbered.head_eq orderly.numbered

/-- The retained records before a position and those from there on. -/
theorem Orderly.split (orderly : log.Orderly) {position : Nat} (retained : log.first ≤ position)
    (inside : position ≤ log.head) : ∃ gone kept,
      log.records.reverse = gone ++ kept ∧ kept.length = log.head - position ∧
        gone.map LogRecord.number = List.range' log.first (position - log.first) ∧
          kept.map LogRecord.number = List.range' position kept.length := by
  have head := orderly.head_eq
  have numbered := orderly.numbered
  have whole := (List.take_append_drop (position - log.first) log.records.reverse).symm
  generalize early : log.records.reverse.take (position - log.first) = gone at whole
  generalize late : log.records.reverse.drop (position - log.first) = kept at whole
  have before : gone.length = position - log.first := by
    rw [← early, List.length_take, List.length_reverse]
    omega
  have count : kept.length = log.head - position := by
    rw [← late, List.length_drop, List.length_reverse]
    omega
  have parts : List.range' log.first log.records.length =
      List.range' log.first (position - log.first) ++ List.range' position kept.length := by
    have joined : List.range' log.first (position - log.first) ++
        List.range' (log.first + (position - log.first)) kept.length =
          List.range' log.first (position - log.first + kept.length) := List.range'_append_1
    rw [Nat.add_sub_of_le retained] at joined
    rw [joined, count, head]
    congr 1
    omega
  rw [whole, List.map_append, parts] at numbered
  obtain ⟨first, last⟩ :=
    List.append_inj numbered (by rw [List.length_map, List.length_range', before])
  exact ⟨gone, kept, whole, count, first, last⟩

theorem number_lt_of_range {start count position : Nat} {records : List LogRecord}
    (numbered : records.map LogRecord.number = List.range' start count)
    (below : start + count ≤ position) : ∀ record ∈ records, record.number < position := by
  intro record member
  have number := List.mem_map_of_mem (f := LogRecord.number) member
  rw [numbered, List.mem_range'_1] at number
  omega

theorem le_number_of_range {position count : Nat} {records : List LogRecord}
    (numbered : records.map LogRecord.number = List.range' position count) :
    ∀ record ∈ records, position ≤ record.number := by
  intro record member
  have number := List.mem_map_of_mem (f := LogRecord.number) member
  rw [numbered, List.mem_range'_1] at number
  exact number.1

theorem since_eq {gone kept : List LogRecord} {position : Nat}
    (whole : log.records.reverse = gone ++ kept) (count : kept.length = log.head - position) :
    log.since position = kept := by
  have backwards : log.records = kept.reverse ++ gone.reverse := by
    rw [← List.reverse_append, ← whole, List.reverse_reverse]
  rw [since, backwards, ← count, List.take_left' (List.length_reverse), List.reverse_reverse]

/-- The records from a position on are numbered from there up to the head. -/
theorem Orderly.numbered_since (orderly : log.Orderly) {position : Nat}
    (retained : log.first ≤ position) :
    (log.since position).map LogRecord.number = List.range' position (log.head - position) := by
  rcases Nat.le_total position log.head with inside | beyond
  · obtain ⟨gone, kept, whole, count, -, last⟩ := orderly.split retained inside
    rw [since_eq whole count, last, count]
  · rw [since, Nat.sub_eq_zero_of_le beyond]
    rfl

/-- A call leaves a log orderly when what it gives the log can be stored. -/
theorem Orderly.answer (orderly : log.Orderly) {α : Type} {call : LogCall α}
    (storable : call.Storable log.head) : (log.answer call).2.Orderly := by
  have inOrder : log.Numbered := orderly.numbered
  obtain ⟨available, numbered, manifest, state, records⟩ := orderly
  cases call with
  | initializeManifest new =>
      refine ⟨available, numbered, ?_, state, records⟩
      intro stored member
      cases held : log.manifest with
      | none =>
          simp only [MemoryLog.answer, held, Option.getD_none, Option.mem_def,
            Option.some.injEq] at member
          exact member ▸ storable
      | some old =>
          simp only [MemoryLog.answer, held, Option.getD_some, Option.mem_def,
            Option.some.injEq] at member
          exact manifest stored (member ▸ held)
  | replaceState expected new =>
      simp only [MemoryLog.answer]
      split
      · refine ⟨available, numbered, manifest, ?_, records⟩
        intro stored member
        cases member
        exact storable
      · exact ⟨available, numbered, manifest, state, records⟩
  | upgrade expected new snapshot =>
      obtain ⟨word, fits⟩ := storable
      simp only [MemoryLog.answer]
      split
      · have version : ∀ stored ∈ some new, stored.version < UInt32.size := by simpa using word
        cases snapshot with
        | none => exact ⟨available, numbered, version, state, records⟩
        | some stored => exact ⟨available, numbered, version, fits, records⟩
      · exact ⟨available, numbered, manifest, state, records⟩
  | append correlation body =>
      exact ⟨available, inOrder.answer (.append correlation body), manifest, state,
        List.forall_mem_cons.mpr ⟨storable, records⟩⟩
  | readFrom position =>
      simp only [MemoryLog.answer]
      split <;> exact ⟨available, numbered, manifest, state, records⟩
  | discardBefore position =>
      exact ⟨available, inOrder.answer (.discardBefore position), manifest, state,
        fun record member => records record (List.mem_of_mem_take member)⟩
  | _ => exact ⟨available, numbered, manifest, state, records⟩

/-- A log that is asked nothing but what it may be asked can be told from its snapshot and its
records. -/
theorem Covered.answer (covered : log.Covered) (orderly : log.Orderly) {α : Type}
    {call : LogCall α} (storable : call.Storable log.head) (proper : call.Covered log) :
    (log.answer call).2.Covered := by
  have head := orderly.head_eq
  have later := (orderly.answer storable).head_eq
  obtain ⟨known, whole⟩ := covered
  cases call with
  | replaceState expected new =>
      simp only [MemoryLog.answer]
      split
      · rename_i same
        refine ⟨?_, nofun⟩
        intro stored member
        cases member
        exact proper same
      · exact ⟨known, whole⟩
  | upgrade expected new snapshot =>
      simp only [MemoryLog.answer]
      split
      · rename_i same
        cases snapshot with
        | none => exact ⟨known, whole⟩
        | some stored => exact ⟨proper same, nofun⟩
      · exact ⟨known, whole⟩
  | append correlation body =>
      refine ⟨?_, whole⟩
      intro stored member
      obtain ⟨retained, below⟩ := known stored member
      exact ⟨retained, Nat.le_succ_of_le below⟩
  | readFrom position =>
      simp only [MemoryLog.answer]
      split <;> exact ⟨known, whole⟩
  | discardBefore position =>
      obtain ⟨saved, held, covers⟩ := proper
      obtain ⟨retained, below⟩ := known saved held
      refine ⟨?_, fun none => absurd (held.symm.trans none) nofun⟩
      intro stored member
      have only : saved = stored := Option.some.inj (held.symm.trans member)
      subst only
      simp only [MemoryLog.answer, List.length_take] at later ⊢
      refine ⟨?_, ?_⟩
      · dsimp only
        omega
      · rw [later]
        omega
  | _ => exact ⟨known, whole⟩

end MemoryLog

/-! ### Opening -/

namespace FileLog

theorem readManifest_eq {directory : Directory} (sound : directory.Sound)
    {stored : Option Manifest} (held : (directory.file? manifestName).map Prod.snd =
      stored.map fun manifest => (Codec.toJson manifest).pretty)
    (words : ∀ manifest ∈ stored, manifest.version < UInt32.size) :
    readManifest directory = .ok stored := by
  rw [readManifest, sound.read_eq, held]
  cases stored with
  | none => rfl
  | some manifest => simp only [Option.map_some, Manifest.ofJsonText?_pretty (words manifest rfl)]

theorem readState_eq {directory : Directory} (sound : directory.Sound)
    {stored : Option StateDocument}
    (held : (directory.file? stateName).map Prod.snd = stored.map Codec.put)
    (storable : ∀ document ∈ stored, document.Storable) :
    readState directory = .ok stored := by
  rw [readState, sound.read_eq, held]
  cases stored with
  | none => rfl
  | some document =>
      have read := Codec.ofBinary?_of_reads (document.reads (storable document rfl))
      simp only [Option.map_some, read]

/-- The number of the first retained record can be told from the snapshot and the records. -/
theorem firstRetained_eq {log : MemoryLog} (orderly : log.Orderly) (covered : log.Covered) :
    firstRetained log.state (Frame.placed 0 log.records.reverse) = log.first := by
  have numbered := orderly.numbered
  have head := orderly.head_eq
  obtain ⟨known, whole⟩ := covered
  cases held : log.state with
  | none => rw [firstRetained, whole held]
  | some document =>
      obtain ⟨retained, below⟩ := known document held
      cases records : log.records.reverse with
      | nil =>
          have none : log.records = [] := List.reverse_eq_nil_iff.mp records
          rw [none, List.length_nil] at head
          change document.position = log.first
          omega
      | cons record rest =>
          have count : log.records.length = rest.length + 1 := by
            rw [← List.length_reverse, records, List.length_cons]
          rw [records, count, List.map_cons, List.range'_succ] at numbered
          change min document.position record.number = log.first
          have number := (List.cons.inj numbered).1
          omega

/-- The log that opening makes of a snapshot and the records of a segment. -/
def recovered (config : FileLogConfig) (segment : Nat) (state : Option StateDocument)
    (records : List LogRecord) : FileLog :=
  let log : FileLog :=
    { config := config
      segment := segment
      length := (Frame.ofRecords records).length
      first := firstRetained state (Frame.placed 0 records)
      records := (Frame.placed 0 records).reverse
      feed := ⟨0, 0⟩ }
  { log with feed := ⟨log.head, 0⟩ }

variable {directory : Directory} {number : Nat} {records : List LogRecord} {rest : Bytes}

/-- Opening finds the intact frames at the front of the segment and cuts off the rest. -/
theorem openIn_eq (config : FileLogConfig) (sound : directory.Sound)
    (segment : directory.file? segmentName = some (number, Frame.ofRecords records ++ rest))
    (storable : ∀ record ∈ records, record.Storable) (torn : Frame.first? 0 rest = none)
    {state : Option StateDocument} (stored : readState directory = .ok state) :
    openIn config directory = (.ok (recovered config number state records),
      directory.truncate number (Frame.ofRecords records).length) := by
  have there : directory.make = directory := by
    cases directory with
    | mk isPresent entries next =>
        cases sound.present
        rfl
  have unchanged := sound.file?_changeOpen_of_ne segment (by decide : stateName ≠ segmentName)
    (·.take (Frame.ofRecords records).length)
  have cut := sound.changeOpen number (·.take (Frame.ofRecords records).length)
  have read : readState (directory.truncate number (Frame.ofRecords records).length) =
      .ok state := by
    rw [readState, sound.read_eq] at stored
    rw [readState, Directory.truncate, cut.read_eq, unchanged, stored]
  simp only [openIn, there, sound.openFile_eq segment, sound.contents_eq segment,
    Except.toOption, Option.getD_some, Frame.scan_ofRecords storable torn, read]
  rfl

/-- What dropping records comes to when there are records to drop: the octets of the segment from
some offset on become a segment of their own. -/
theorem discardBefore_eq {log : FileLog} {directory renewed : Directory} {position cut number : Nat}
    {bytes remaining : Bytes} (late : ¬ min position log.head ≤ log.first)
    (begins : ((log.records.reverse.find? fun entry =>
      decide (min position log.head ≤ entry.2.number)).map Prod.fst).getD log.length = cut)
    (contents : directory.contents segmentName = .ok bytes) (dropped : bytes.drop cut = remaining)
    (replaced : directory.replace segmentName remaining = .ok renewed)
    (opened : renewed.openFile segmentName = .ok (number, renewed)) :
    log.discardBefore directory position = .ok
      ({ log with
          segment := number
          length := remaining.length
          first := min position log.head
          records := (log.records.filter fun entry =>
            decide (min position log.head ≤ entry.2.number)).map fun entry =>
              (entry.1 - cut, entry.2) },
        renewed) := by
  unfold discardBefore
  subst dropped
  rw [if_neg late, contents]
  dsimp only
  generalize log.records.reverse.find? _ = found at begins ⊢
  have onward (bytes : Bytes) {result : Except LogError (FileLog × Directory)}
      (replaced : directory.replace segmentName bytes = .ok renewed)
      (next : Nat × Directory → Except LogError (FileLog × Directory))
      (same : next (number, renewed) = result) :
      (directory.replace segmentName bytes >>= fun made => made.openFile segmentName >>= next) =
        result := by
    rw [replaced, ← same]
    change renewed.openFile segmentName >>= next = _
    rw [opened]
    rfl
  cases found with
  | none =>
      cases begins
      exact onward _ replaced _ rfl
  | some entry =>
      cases begins
      exact onward _ replaced _ rfl

end FileLog

namespace FileStore

/-- A store holds what a log in memory holds, its segment the frames of the records. -/
structure Mirrors (store : FileStore) (log : MemoryLog) : Prop where
  sound : store.directory.Sound
  segment : store.directory.file? FileLog.segmentName =
    some (store.log.segment, Frame.ofRecords log.records.reverse)
  manifest : (store.directory.file? FileLog.manifestName).map Prod.snd =
    log.manifest.map fun manifest => (Codec.toJson manifest).pretty
  state : (store.directory.file? FileLog.stateName).map Prod.snd = log.state.map Codec.put
  length : store.log.length = (Frame.ofRecords log.records.reverse).length
  first : store.log.first = log.first
  records : store.log.records = (Frame.placed 0 log.records.reverse).reverse

variable {store : FileStore} {log : MemoryLog}

theorem Mirrors.head_eq (mirrors : store.Mirrors log) : store.log.head = log.head := by
  rw [FileLog.head, mirrors.records, mirrors.first, MemoryLog.head]
  cases log.records with
  | nil => rfl
  | cons latest earlier =>
      rw [List.reverse_cons, Frame.placed_concat, List.reverse_concat]

/-- Opening a directory whose segment holds the frames of records, with nothing intact after them,
leaves it holding what a log in memory does that has those records. -/
theorem mirrors_recovered (config : FileLogConfig) {directory : Directory} {number : Nat}
    {rest : Bytes} (orderly : log.Orderly) (sound : directory.Sound)
    (segment : directory.file? FileLog.segmentName =
      some (number, Frame.ofRecords log.records.reverse ++ rest))
    (torn : Frame.first? 0 rest = none)
    (manifest : (directory.file? FileLog.manifestName).map Prod.snd =
      log.manifest.map fun manifest => (Codec.toJson manifest).pretty)
    (state : (directory.file? FileLog.stateName).map Prod.snd = log.state.map Codec.put)
    (first : FileLog.firstRetained log.state (Frame.placed 0 log.records.reverse) = log.first) :
    ∃ store, opened config directory = .ok store ∧ store.Mirrors log := by
  have storable : ∀ record ∈ log.records.reverse, record.Storable := fun record member =>
    orderly.records record (List.mem_reverse.mp member)
  have stored := FileLog.readState_eq sound state orderly.state
  have opens := FileLog.openIn_eq config sound segment storable torn stored
  have others {name : String} (different : name ≠ FileLog.segmentName) :=
    sound.file?_changeOpen_of_ne segment different
      (·.take (Frame.ofRecords log.records.reverse).length)
  refine ⟨_, by rw [opened, opens], ?_⟩
  refine ⟨sound.changeOpen _ _, ?_, ?_, ?_, rfl, first, rfl⟩
  · rw [Directory.truncate, Directory.file?_changeOpen_self segment, List.take_left]
    rfl
  · rw [Directory.truncate, others (by decide), manifest]
  · rw [Directory.truncate, others (by decide), state]

/-- A log that is told from its snapshot and its records is the same when it is opened again. -/
theorem Mirrors.reopen (mirrors : store.Mirrors log) (orderly : log.Orderly) (covered : log.Covered)
    (config : FileLogConfig) :
    ∃ again, opened config store.directory = .ok again ∧ again.Mirrors log := by
  have segment := mirrors.segment
  rw [← List.append_nil (Frame.ofRecords log.records.reverse)] at segment
  exact mirrors_recovered config orderly mirrors.sound segment rfl mirrors.manifest mirrors.state
    (FileLog.firstRetained_eq orderly covered)

/-- The log of an empty directory holds nothing. -/
theorem mirrors_empty (config : FileLogConfig) {directory : Directory}
    (empty : directory.entries = []) :
    ∃ store, opened config directory = .ok store ∧ store.Mirrors .empty := by
  have sound := Directory.sound_make empty
  have none (name : String) : directory.make.file? name = .none := by
    rw [Directory.file?, Directory.make, empty]
    rfl
  have made := sound.create FileLog.segmentName []
  have segment := directory.make.file?_create_self FileLog.segmentName []
  -- Opening makes the segment, and then finds it as if it had been there.
  have same : FileLog.openIn config directory =
      FileLog.openIn config (directory.make.create FileLog.segmentName []) := by
    have again : (directory.make.create FileLog.segmentName []).make =
        directory.make.create FileLog.segmentName [] := rfl
    simp only [FileLog.openIn, again, sound.openFile_new (none FileLog.segmentName),
      made.openFile_eq segment]
  have others {name : String} (different : name ≠ FileLog.segmentName) :
      ((directory.make.create FileLog.segmentName []).file? name).map Prod.snd = .none := by
    rw [Directory.file?_create_of_ne different, none]
    rfl
  have opens := mirrors_recovered config MemoryLog.orderly_empty made segment rfl
    (others (by decide)) (others (by decide)) rfl
  rwa [opened, ← same] at opens

/-! ### Answering a call -/

/-- The log in memory is only looked at for its contents, not for what subscribers were told. -/
theorem Mirrors.congr {other : MemoryLog} (mirrors : store.Mirrors log)
    (manifest : other.manifest = log.manifest) (state : other.state = log.state)
    (first : other.first = log.first) (records : other.records = log.records) :
    store.Mirrors other := by
  obtain ⟨sound, segment, storedManifest, storedState, length, storedFirst, storedRecords⟩ :=
    mirrors
  refine ⟨sound, ?_, ?_, ?_, ?_, ?_, ?_⟩
  all_goals simpa only [manifest, state, first, records]

theorem Mirrors.writeManifest (mirrors : store.Mirrors log) (new : Manifest) :
    ∃ directory, FileLog.writeManifest store.directory new = .ok directory ∧
      Mirrors ⟨store.log, directory⟩ { log with manifest := some new } := by
  refine ⟨_, mirrors.sound.replace_eq _ _, mirrors.sound.create _ _, ?_, ?_, ?_, mirrors.length,
    mirrors.first, mirrors.records⟩
  · rw [Directory.file?_create_of_ne (by decide), mirrors.segment]
  · rw [Directory.file?_create_self]
    rfl
  · rw [Directory.file?_create_of_ne (by decide), mirrors.state]

theorem Mirrors.writeState (mirrors : store.Mirrors log) (document : StateDocument) :
    ∃ directory, FileLog.writeState store.directory document = .ok directory ∧
      Mirrors ⟨store.log, directory⟩ { log with state := some document } := by
  refine ⟨_, mirrors.sound.replace_eq _ _, mirrors.sound.create _ _, ?_, ?_, ?_, mirrors.length,
    mirrors.first, mirrors.records⟩
  · rw [Directory.file?_create_of_ne (by decide), mirrors.segment]
  · rw [Directory.file?_create_of_ne (by decide), mirrors.manifest]
  · rw [Directory.file?_create_self]
    rfl

/-- A frame is written after the others. -/
theorem Mirrors.append (mirrors : store.Mirrors log) (record : LogRecord) (feed later : Feed) :
    Mirrors
      ⟨{ store.log with
          length := store.log.length + (Frame.ofRecord record).length
          records := (store.log.length, record) :: store.log.records
          feed := feed },
        store.directory.append store.log.segment (Frame.ofRecord record)⟩
      { log with records := record :: log.records, feed := later } := by
  have joined : Frame.ofRecords (record :: log.records).reverse =
      Frame.ofRecords log.records.reverse ++ Frame.ofRecord record := by
    rw [List.reverse_cons, Frame.ofRecords_append]
    simp [Frame.ofRecords]
  have others {name : String} (different : name ≠ FileLog.segmentName) :=
    mirrors.sound.file?_changeOpen_of_ne mirrors.segment different (· ++ Frame.ofRecord record)
  rw [Directory.append_eq]
  refine ⟨mirrors.sound.changeOpen store.log.segment (· ++ Frame.ofRecord record), ?_, ?_, ?_, ?_,
    mirrors.first, ?_⟩
  · rw [Directory.file?_changeOpen_self mirrors.segment, joined]
  · rw [others (by decide), mirrors.manifest]
  · rw [others (by decide), mirrors.state]
  · rw [joined, List.length_append, mirrors.length]
  · rw [List.reverse_cons, Frame.placed_concat, List.reverse_concat, mirrors.records,
      mirrors.length]

/-- The frames of the records from a position on take the place of the segment. -/
theorem Mirrors.discardBefore (mirrors : store.Mirrors log) (orderly : log.Orderly)
    (position : Nat) :
    ∃ after directory, store.log.discardBefore store.directory position = .ok (after, directory) ∧
      Mirrors ⟨after, directory⟩ (log.answer (.discardBefore position)).2 := by
  have head := orderly.head_eq
  by_cases early : min position log.head ≤ log.first
  · refine ⟨store.log, store.directory, ?_, mirrors.congr rfl rfl ?_ ?_⟩
    · rw [FileLog.discardBefore, mirrors.head_eq, mirrors.first, if_pos early]
    · exact Nat.max_eq_left early
    · change log.records.take (log.head - max log.first (min position log.head)) = log.records
      exact List.take_of_length_le (by omega)
  · generalize bound : min position log.head = cut at early
    obtain ⟨gone, kept, whole, count, first, last⟩ :=
      orderly.split (by omega : log.first ≤ cut) (by omega)
    have gone_lt := MemoryLog.number_lt_of_range first (by omega : _ ≤ cut)
    have le_kept := MemoryLog.le_number_of_range last
    have remaining : (log.records.take (log.head - cut)).reverse = kept :=
      MemoryLog.since_eq whole count
    have found := Frame.find?_placed gone_lt le_kept
    have filtered := Frame.filter_placed gone_lt le_kept
    have bytes : (Frame.ofRecords (gone ++ kept)).drop (Frame.ofRecords gone).length =
        Frame.ofRecords kept := by
      rw [Frame.ofRecords_append, List.drop_left]
    have segment := mirrors.segment
    rw [whole] at segment
    have made := mirrors.sound.create FileLog.segmentName (Frame.ofRecords kept)
    have created := store.directory.file?_create_self FileLog.segmentName (Frame.ofRecords kept)
    have replaced := mirrors.sound.replace_eq FileLog.segmentName (Frame.ofRecords kept)
    have begins : ((store.log.records.reverse.find? fun entry =>
        decide (cut ≤ entry.2.number)).map Prod.fst).getD store.log.length =
          (Frame.ofRecords gone).length := by
      rw [mirrors.records, List.reverse_reverse, whole, found, mirrors.length, whole]
      cases kept with
      | nil => rw [List.append_nil]; rfl
      | cons record rest => rfl
    rw [← mirrors.head_eq] at bound
    rw [← bound] at early begins
    refine ⟨_, _, FileLog.discardBefore_eq (mirrors.first ▸ early) begins
      (mirrors.sound.contents_eq segment) bytes replaced (made.openFile_eq created), ?_⟩
    rw [bound] at early ⊢
    have latest : max log.first (min position log.head) = cut := by
      rw [← mirrors.head_eq]
      omega
    change Mirrors _ { log with
      first := max log.first (min position log.head)
      records := log.records.take (log.head - max log.first (min position log.head)) }
    rw [latest]
    refine ⟨made, ?_, ?_, ?_, ?_, rfl, ?_⟩
    · rw [created, remaining]
    · rw [Directory.file?_create_of_ne (by decide), mirrors.manifest]
    · rw [Directory.file?_create_of_ne (by decide), mirrors.state]
    · rw [remaining]
    · have moved := Frame.placed_sub (Frame.ofRecords gone).length 0 kept
      rw [Nat.add_zero] at moved
      rw [remaining]
      simp only [mirrors.records, whole, List.filter_reverse, filtered, List.map_reverse, moved]

/-- The records from a position on are those of the frames with its number or a later one. -/
theorem Mirrors.since_eq (mirrors : store.Mirrors log) (orderly : log.Orderly) {position : Nat}
    (retained : log.first ≤ position) :
    ((store.log.records.filter fun entry => decide (position ≤ entry.2.number)).reverse.map
      Prod.snd) = log.since position := by
  rw [mirrors.records, List.filter_reverse, List.reverse_reverse]
  by_cases inside : position ≤ log.head
  · obtain ⟨gone, kept, whole, count, first, last⟩ := orderly.split retained inside
    have gone_lt := MemoryLog.number_lt_of_range first (by omega : _ ≤ position)
    rw [whole, Frame.filter_placed gone_lt (MemoryLog.le_number_of_range last),
      Frame.map_snd_placed, MemoryLog.since_eq whole count]
  · have head := orderly.head_eq
    have below := MemoryLog.number_lt_of_range orderly.numbered (by omega : _ ≤ position)
    have none : log.head - position = 0 := by omega
    rw [Frame.filter_placed_none below, MemoryLog.since, none]
    rfl

/-- Both logs give the same answer to a call, and are alike after it. -/
theorem Mirrors.perform (mirrors : store.Mirrors log) (orderly : log.Orderly) {α : Type}
    {call : LogCall α} (storable : call.Storable log.head) :
    (store.perform call).1 = (log.answer call).1 ∧
      (store.perform call).2.Mirrors (log.answer call).2 := by
  have readManifest := FileLog.readManifest_eq mirrors.sound mirrors.manifest orderly.manifest
  have readState := FileLog.readState_eq mirrors.sound mirrors.state orderly.state
  have head := mirrors.head_eq
  cases call with
  | manifest => exact ⟨readManifest, mirrors⟩
  | initializeManifest new =>
      simp only [FileStore.perform, FileLog.perform, MemoryLog.answer, readManifest]
      cases held : log.manifest with
      | none =>
          obtain ⟨directory, written, after⟩ := mirrors.writeManifest new
          simp only [written, Option.getD_none]
          exact ⟨trivial, after⟩
      | some old => exact ⟨rfl, mirrors.congr held.symm rfl rfl rfl⟩
  | state => exact ⟨readState, mirrors⟩
  | replaceState expected document =>
      simp only [FileStore.perform, FileLog.perform, MemoryLog.answer, readState]
      obtain ⟨directory, written, after⟩ := mirrors.writeState document
      by_cases same : log.state.map StateDocument.revision = expected
      · simp only [if_pos same, written, FileLog.wrote]
        exact ⟨trivial, after⟩
      · simp only [if_neg same]
        exact ⟨trivial, mirrors⟩
  | upgrade expected new document =>
      simp only [FileStore.perform, FileLog.perform, MemoryLog.answer, readManifest]
      by_cases same : log.manifest = some expected
      · cases document with
        | none =>
            obtain ⟨directory, written, after⟩ := mirrors.writeManifest new
            simp only [if_pos same, written, FileLog.wrote]
            exact ⟨trivial, after⟩
        | some document =>
            obtain ⟨first, storedState, between⟩ := mirrors.writeState document
            obtain ⟨second, storedManifest, after⟩ := between.writeManifest new
            dsimp only at storedManifest
            simp only [if_pos same, storedState, storedManifest, FileLog.wrote]
            exact ⟨trivial, after⟩
      · simp only [if_neg same]
        exact ⟨trivial, mirrors⟩
  | append correlation body =>
      simp only [FileStore.perform, FileLog.perform, MemoryLog.answer, head]
      have short : ¬ UInt32.size + Frame.headerSize ≤
          (Frame.ofRecord ⟨log.head, correlation, body⟩).length := by
        have counted := LogRecord.Storable.short storable
        rw [Frame.length_ofRecord]
        omega
      rw [if_neg short]
      exact ⟨rfl, mirrors.append _ _ _⟩
  | readFrom position =>
      simp only [FileStore.perform, FileLog.perform, MemoryLog.answer, mirrors.first]
      by_cases early : position < log.first
      · simp only [if_pos early]
        exact ⟨trivial, mirrors⟩
      · simp only [if_neg early]
        exact ⟨congrArg Except.ok (mirrors.since_eq orderly (Nat.le_of_not_lt early)), mirrors⟩
  | head => exact ⟨congrArg Except.ok head, mirrors⟩
  | discardBefore position =>
      obtain ⟨kept, directory, discarded, after⟩ := mirrors.discardBefore orderly position
      simp only [FileStore.perform, FileLog.perform, discarded]
      exact ⟨rfl, after⟩

/-! ### Runs -/

/-- A run that a log may be put through gives the answers that a log in memory gives. -/
theorem Mirrors.run (mirrors : store.Mirrors log) (orderly : log.Orderly) (covered : log.Covered)
    {events : List StoreEvent} (disciplined : log.Disciplined events) :
    ∃ last, store.run events = .ok (log.answers events, last) ∧
      last.Mirrors (events.foldl MemoryLog.after log) ∧
        (events.foldl MemoryLog.after log).Orderly ∧
          (events.foldl MemoryLog.after log).Covered := by
  induction events generalizing store log with
  | nil => exact ⟨store, rfl, mirrors, orderly, covered⟩
  | cons event rest ih =>
      cases event with
      | ask call =>
          obtain ⟨storable, proper, later⟩ := disciplined
          obtain ⟨same, after⟩ := mirrors.perform orderly storable
          have performed := orderly.perform_eq call
          rw [performed] at later
          obtain ⟨last, ran, kept⟩ := ih after (orderly.answer storable)
            (covered.answer orderly storable proper) later
          rw [List.foldl_cons, MemoryLog.after, performed]
          refine ⟨last, ?_, kept⟩
          rw [FileStore.run, ran, MemoryLog.answers, performed, same]
          rfl
      | reopen config =>
          obtain ⟨again, opens, after⟩ := mirrors.reopen orderly covered config
          obtain ⟨last, ran, kept⟩ := ih after orderly covered disciplined
          refine ⟨last, ?_, kept⟩
          rw [FileStore.run, opens, MemoryLog.answers]
          exact ran

/-- The log of a directory that was empty, asked what it may be asked and opened again at any time,
gives the answers of a log in memory, and it can always be opened. -/
theorem answers_eq_memory (config : FileLogConfig) {directory : Directory}
    (empty : directory.entries = []) {events : List StoreEvent}
    (disciplined : MemoryLog.empty.Disciplined events) :
    ∃ store last, opened config directory = .ok store ∧
      store.run events = .ok (MemoryLog.empty.answers events, last) := by
  obtain ⟨store, opens, mirrors⟩ := mirrors_empty config empty
  obtain ⟨last, ran, -⟩ :=
    mirrors.run MemoryLog.orderly_empty MemoryLog.covered_empty disciplined
  exact ⟨store, last, opens, ran⟩

end FileStore

/-! ### In the sample -/

namespace Sample

/-- A record that names the tree. -/
def naming : RecordBody := .update ⟨.replacement ⟨[.name "title"]⟩ (.str "new"), .empty⟩

/-- Two records, a snapshot after the first one, which is dropped then, and calls that are refused;
the log is opened again where it has been changed. -/
def busy : List StoreEvent :=
  [.ask (.initializeManifest (.new .json)), .ask (.append (Uuid.ofNat 0) naming),
    .ask (.replaceState none ⟨1, 1, .json, []⟩), .reopen .durable,
    .ask (.append (Uuid.ofNat 1) .barrier), .ask (.discardBefore 1), .reopen .standard,
    .ask (.readFrom 0), .ask (.readFrom 1), .ask (.replaceState none ⟨2, 2, .json, []⟩),
    .ask (.upgrade (.new .binary) (.new .json) none), .ask .head]

theorem naming_storable : naming.Storable :=
  ⟨⟨by decide, fun value same => by cases same; exact .str _, nofun⟩, .nil⟩

theorem disciplined_busy : MemoryLog.empty.Disciplined busy := by
  have word : (Manifest.new .json).version < UInt32.size := by decide
  refine ⟨word, trivial, ⟨by decide, naming_storable, by decide +kernel⟩, trivial,
    ⟨by decide, by decide, by decide⟩, fun _ => ⟨by decide, by decide⟩,
    ⟨by decide, trivial, by decide +kernel⟩, trivial, trivial, ⟨_, rfl, by decide⟩, trivial,
    trivial, trivial, trivial, ⟨by decide, by decide, by decide⟩, nofun, ⟨word, nofun⟩, nofun,
    trivial, trivial, trivial⟩

theorem busy_answers_eq_memory :
    Directory.absent.entries = [] ∧ MemoryLog.empty.Disciplined busy ∧
      ∃ store last, FileStore.opened .standard .absent = .ok store ∧
        store.run busy = .ok (MemoryLog.empty.answers busy, last) :=
  ⟨rfl, disciplined_busy, FileStore.answers_eq_memory .standard rfl disciplined_busy⟩

end Sample

end StateTree
