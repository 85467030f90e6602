/-
Module: StateTree.Proofs.Outcomes
Purpose: How a program on a log may end while nobody else uses the log: each of its calls is
  answered, or it fails and has no effect. A log on a shelf, in memory or in a directory, is told by
  what it holds.
-/
import StateTree.Proofs.Recovery
import StateTree.Proofs.Startups

namespace StateTree

/-! ### Ends of programs -/

namespace LogProgram

variable {α β : Type} {number : Nat} {shelf later : LogShelf}

/-- How a program on a log may end that nobody comes between. Each of its calls is answered by the
log, or it fails with some error and has no effect. -/
inductive Ends (number : Nat) {α : Type} :
    LogProgram α → LogShelf → Except LogError α → LogShelf → Prop
  | done {result : Except LogError α} {shelf : LogShelf} :
      Ends number (.done result) shelf result shelf
  | rest {time : Nat} {next : LogProgram α} {shelf later : LogShelf} {result : Except LogError α}
      (onward : Ends number next shelf result later) :
      Ends number (.rest time next) shelf result later
  | answered {β : Type} {call : LogCall β} {next : Except LogError β → LogProgram α}
      {shelf later : LogShelf} {result : Except LogError α}
      (onward : Ends number (next (shelf.perform number call).1) (shelf.perform number call).2
        result later) :
      Ends number (.ask call next) shelf result later
  | failed {β : Type} {call : LogCall β} {next : Except LogError β → LogProgram α}
      {shelf later : LogShelf} {result : Except LogError α} (error : LogError)
      (onward : Ends number (next (.error error)) shelf result later) :
      Ends number (.ask call next) shelf result later

/-- When no call fails on the way, a program ends as it does when it is run. -/
theorem ends_run (program : LogProgram α) (shelf : LogShelf) (clock : Nat) :
    program.Ends number shelf (program.run (LogShelf.perform number) shelf clock).1
      (program.run (LogShelf.perform number) shelf clock).2.1 := by
  induction program generalizing shelf clock with
  | done result => exact .done
  | rest time next ih => exact .rest (ih shelf _)
  | ask call next ih => exact .answered (ih _ _ clock)

/-- A program with another after it ends with an error of its own, or as the other does. -/
theorem Ends.bind_cases {program : LogProgram α} {next : α → LogProgram β}
    {result : Except LogError β} (ends : (program >>= next).Ends number shelf result later) :
    ∃ first middle, program.Ends number shelf first middle ∧
      match first with
      | .ok value => (next value).Ends number middle result later
      | .error error => result = .error error ∧ later = middle := by
  change (program.bind next).Ends number shelf result later at ends
  induction program generalizing shelf with
  | done first =>
      refine ⟨first, shelf, .done, ?_⟩
      cases first with
      | ok value => exact ends
      | error error =>
          cases ends
          exact ⟨rfl, rfl⟩
  | rest time program ih =>
      cases ends with
      | rest onward =>
          obtain ⟨first, middle, early, late⟩ := ih onward
          exact ⟨first, middle, .rest early, late⟩
  | ask call answer ih =>
      cases ends with
      | answered onward =>
          obtain ⟨first, middle, early, late⟩ := ih _ onward
          exact ⟨first, middle, .answered early, late⟩
      | failed error onward =>
          obtain ⟨first, middle, early, late⟩ := ih _ onward
          exact ⟨first, middle, .failed error early, late⟩

/-- A program with another way to go on from its errors ends well, or as this other way does. -/
theorem Ends.recover_cases {program : LogProgram α} {handle : LogError → LogProgram α}
    {result : Except LogError α} (ends : (program.recover handle).Ends number shelf result later) :
    ∃ first middle, program.Ends number shelf first middle ∧
      match first with
      | .ok value => result = .ok value ∧ later = middle
      | .error error => (handle error).Ends number middle result later := by
  induction program generalizing shelf with
  | done first =>
      refine ⟨first, shelf, .done, ?_⟩
      cases first with
      | ok value =>
          cases ends
          exact ⟨rfl, rfl⟩
      | error error => exact ends
  | rest time program ih =>
      cases ends with
      | rest onward =>
          obtain ⟨first, middle, early, late⟩ := ih onward
          exact ⟨first, middle, .rest early, late⟩
  | ask call answer ih =>
      cases ends with
      | answered onward =>
          obtain ⟨first, middle, early, late⟩ := ih _ onward
          exact ⟨first, middle, .answered early, late⟩
      | failed error onward =>
          obtain ⟨first, middle, early, late⟩ := ih _ onward
          exact ⟨first, middle, .failed error early, late⟩

theorem Ends.call_cases {call : LogCall α} {result : Except LogError α}
    (ends : (LogProgram.call call).Ends number shelf result later) :
    (result, later) = shelf.perform number call ∨
      (∃ error, result = .error error) ∧ later = shelf := by
  cases ends with
  | answered onward =>
      cases onward
      exact Or.inl rfl
  | failed error onward =>
      cases onward
      exact Or.inr ⟨⟨error, rfl⟩, rfl⟩

variable {call : LogCall α} {value : α} {after : LogShelf}
  (answers : shelf.perform number call = (.ok value, after))

include answers

/-- A call that is tried again and that the log would answer is answered in the end, or all of its
attempts have failed. -/
theorem Ends.attempt_cases {delay : Nat → Nat} {failed retries : Nat} {result : Except LogError α}
    (ends : (LogProgram.attempt call delay failed retries).Ends number shelf result later) :
    (result = .ok value ∧ later = after) ∨ (∃ error, result = .error error) ∧ later = shelf := by
  induction retries generalizing failed with
  | zero =>
      refine ends.call_cases.imp_left fun same => ?_
      rw [answers] at same
      exact Prod.mk.inj same
  | succ retries ih =>
      cases ends with
      | answered onward =>
          rw [answers] at onward
          cases onward
          exact Or.inl ⟨rfl, rfl⟩
      | failed error onward =>
          dsimp only at onward
          split at onward
          · cases onward with
            | rest onward => exact ih onward
          · cases onward
            exact Or.inr ⟨⟨error, rfl⟩, rfl⟩

/-- A call that the log answers need not be tried again. -/
theorem run_attempt_ok (delay : Nat → Nat) (failed retries clock : Nat) :
    (attempt call delay failed retries).run (LogShelf.perform number) shelf clock =
      (.ok value, after, clock) := by
  rw [run_attempt (LogShelf.perform number) (by rw [answers]; nofun), answers]

end LogProgram

/-! ### What a log holds -/

/-- Whether a call only looks at a log. -/
def LogCall.looks {α : Type} : LogCall α → Bool
  | .manifest | .state | .readFrom _ | .head => true
  | _ => false

namespace MemoryLog

variable {log : MemoryLog}

/-- Between two positions there are records of numbers between them, and from the later one on those
of higher numbers. -/
theorem Numbered.since_split (numbered : log.Numbered) {start stop : Nat}
    (retained : log.first ≤ start) (onward : start ≤ stop) :
    ∃ between, log.since start = between ++ log.since stop ∧
      (∀ record ∈ between, start ≤ record.number ∧ record.number < stop) ∧
        ∀ record ∈ log.since stop, stop ≤ record.number := by
  have numbers (records : List LogRecord) (count : Nat)
      (same : records = (log.records.reverse.drop count)) :
      records.map LogRecord.number =
        List.range' (log.first + count) (log.records.length - count) := by
    rw [same, List.map_drop, numbered, List.drop_range', Nat.mul_one]
  refine ⟨(log.since start).take (stop - start), ?_, ?_, ?_⟩
  · rw [numbered.since_eq_drop (Nat.le_trans retained onward), numbered.since_eq_drop retained]
    have step : stop - log.first = start - log.first + (stop - start) := by omega
    rw [step, ← List.drop_drop, List.take_append_drop]
  · intro record member
    have number := List.mem_map_of_mem (f := LogRecord.number) member
    rw [List.map_take, numbers _ _ (numbered.since_eq_drop retained)] at number
    rcases Nat.le_total (log.records.length - (start - log.first)) (stop - start) with few | many
    · rw [List.take_range'_of_length_le few, List.mem_range'_1] at number
      omega
    · rw [List.take_range'_of_length_ge many, List.mem_range'_1] at number
      omega
  · intro record member
    have number := List.mem_map_of_mem (f := LogRecord.number) member
    rw [numbers _ _ (numbered.since_eq_drop (Nat.le_trans retained onward)),
      List.mem_range'_1] at number
    omega

theorem failures_answer {α : Type} (call : LogCall α) :
    (log.answer call).2.failures = log.failures := by
  cases call <;> simp only [MemoryLog.answer] <;> split <;> rfl

end MemoryLog

namespace LogShelf

variable {shelf : LogShelf} {number : Nat} {log : MemoryLog}

/-- A log on a shelf holds what a log in memory holds: it is that log, and available, or it is kept
in a directory that mirrors it. -/
inductive Shows (number : Nat) (log : MemoryLog) (shelf : LogShelf) : Prop
  | memory (there : shelf.stores[number]? = some (.memory log)) (available : log.failures = 0)
      (numbered : log.Numbered)
  | file {file : FileLog} {place : Nat} (there : shelf.stores[number]? = some (.file file place))
      (inside : place < shelf.directories.length)
      (mirrors : FileStore.Mirrors ⟨file, shelf.directory place⟩ log) (orderly : log.Orderly)

/-- What a call gives a log can be read back, where the log has to read it from a file. -/
def Takes (shelf : LogShelf) (number : Nat) {α : Type} (call : LogCall α) (log : MemoryLog) :
    Prop :=
  shelf.isOnDisk number = true → call.Storable log.head

theorem Shows.numbered : shelf.Shows number log → log.Numbered
  | .memory _ _ numbered => numbered
  | .file _ _ _ orderly => orderly.numbered

theorem Shows.snapshot_eq (shows : shelf.Shows number log) :
    shelf.snapshot number = .ok log.state := by
  cases shows with
  | memory there => rw [snapshot, there]
  | file there inside mirrors orderly =>
      rw [snapshot, there]
      exact FileLog.readState_eq mirrors.sound mirrors.state orderly.state

theorem Shows.head_eq (shows : shelf.Shows number log) : shelf.head number = log.head := by
  cases shows with
  | memory there => rw [head, there]
  | file there inside mirrors orderly =>
      rw [head, there]
      exact mirrors.head_eq

theorem Shows.retained_eq (shows : shelf.Shows number log) :
    shelf.retained number = (log.first, log.records) := by
  cases shows with
  | memory there => rw [retained, there]
  | file there inside mirrors orderly =>
      rw [retained, there]
      have records := mirrors.records
      dsimp only at records ⊢
      rw [records, List.map_reverse, Frame.map_snd_placed, List.reverse_reverse]
      exact congrArg (·, log.records) mirrors.first

theorem directory_set_self {place : Nat} (inside : place < shelf.directories.length)
    {stores : List LogStore} {contents : Directory} :
    LogShelf.directory
      { shelf with stores := stores, directories := shelf.directories.set place contents } place =
        contents := by
  rw [directory, List.getElem?_set_self inside]
  rfl

/-- A log on a shelf answers as the log in memory does, and holds what that one holds then. -/
theorem Shows.perform (shows : shelf.Shows number log) {α : Type} (call : LogCall α)
    (takes : shelf.Takes number call log) :
    (shelf.perform number call).1 = (log.answer call).1 ∧
      (shelf.perform number call).2.Shows number (log.answer call).2 := by
  cases shows with
  | memory there available numbered =>
      have lt : number < shelf.stores.length := (List.getElem?_eq_some_iff.mp there).1
      have performed : log.perform call = log.answer call := by rw [MemoryLog.perform, available]
      rw [LogShelf.perform, there]
      dsimp only
      rw [performed]
      exact ⟨rfl, .memory (List.getElem?_set_self lt)
        ((MemoryLog.failures_answer call).trans available) (numbered.answer call)⟩
  | @file file place there inside mirrors orderly =>
      have lt : number < shelf.stores.length := (List.getElem?_eq_some_iff.mp there).1
      have onDisk : shelf.isOnDisk number = true := by rw [isOnDisk, there]
      obtain ⟨same, after⟩ := mirrors.perform orderly (takes onDisk)
      have performed : shelf.perform number call =
          ((file.perform (shelf.directory place) call).1,
            { shelf with
              stores := shelf.stores.set number
                (.file (file.perform (shelf.directory place) call).2.1 place)
              directories := shelf.directories.set place
                (file.perform (shelf.directory place) call).2.2 }) := by
        rw [LogShelf.perform, there]
        rfl
      rw [performed]
      refine ⟨same, .file (List.getElem?_set_self lt) ?_ ?_ (orderly.answer (takes onDisk))⟩
      · rw [List.length_set]
        exact inside
      · dsimp only
        rw [directory_set_self inside]
        exact after

/-- The logs are the same after a call that leaves its log and the log's directory the same. -/
theorem perform_of_still {α : Type} {call : LogCall α}
    (memory : ∀ log, shelf.stores[number]? = some (.memory log) → (log.perform call).2 = log)
    (file : ∀ log place, shelf.stores[number]? = some (.file log place) →
      (log.perform (shelf.directory place) call).2 = (log, shelf.directory place)) :
    (shelf.perform number call).2 = shelf := by
  have unmoved {store : LogStore} (there : shelf.stores[number]? = some store) :
      shelf.stores.set number store = shelf.stores := by
    obtain ⟨lt, same⟩ := List.getElem?_eq_some_iff.mp there
    rw [← same, List.set_getElem_self]
  obtain ⟨log, there, same⟩ | ⟨log, place, there, same⟩ | same := shelf.perform_cases number
  · rw [same, memory log there, unmoved there]
  · have kept : shelf.directories.set place (shelf.directory place) = shelf.directories := by
      by_cases inside : place < shelf.directories.length
      · rw [directory, List.getElem?_eq_getElem inside, Option.getD_some, List.set_getElem_self]
      · exact List.set_eq_of_length_le (Nat.le_of_not_lt inside)
    rw [same, file log place there, unmoved there, kept]
  · rw [same]

/-- A log is the same after a call that only looks at it. -/
theorem Shows.perform_looks (shows : shelf.Shows number log) {α : Type} {call : LogCall α}
    (looks : call.looks = true) : (shelf.perform number call).2 = shelf := by
  refine perform_of_still (fun held there => ?_) (fun file place there => ?_)
  · cases shows with
    | memory same available =>
        cases there.symm.trans same
        rw [MemoryLog.perform, available]
        cases call with
        | readFrom position =>
            simp only [MemoryLog.answer]
            split <;> rfl
        | manifest | state | head => rfl
        | _ => cases looks
    | file same => cases there.symm.trans same
  · cases call with
    | readFrom position =>
        simp only [FileLog.perform]
        split <;> rfl
    | manifest | state | head => rfl
    | _ => cases looks

theorem Shows.perform_state (shows : shelf.Shows number log) :
    shelf.perform number .state = (.ok log.state, shelf) :=
  Prod.ext (shows.perform .state fun _ => trivial).1 (shows.perform_looks rfl)

/-- A log that was opened in an empty directory, and asked what it may be asked, holds what a log in
memory does after that. -/
theorem shows_of_run (config : FileLogConfig) {directory : Directory}
    (empty : directory.entries = []) {events : List StoreEvent}
    (disciplined : MemoryLog.empty.Disciplined events) :
    ∃ start answers store, FileStore.opened config directory = .ok start ∧
      start.run events = .ok (answers, store) ∧
        LogShelf.Shows 0 (events.foldl MemoryLog.after .empty)
          ⟨[.file store.log 0], [store.directory], []⟩ := by
  obtain ⟨start, opens, begins⟩ := FileStore.mirrors_empty config empty
  obtain ⟨store, ran, mirrors, orderly, -⟩ :=
    begins.run MemoryLog.orderly_empty MemoryLog.covered_empty disciplined
  exact ⟨start, _, store, opens, ran, .file rfl Nat.one_pos mirrors orderly⟩

end LogShelf

end StateTree
