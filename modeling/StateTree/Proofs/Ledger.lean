/-
Module: StateTree.Proofs.Ledger
Purpose: A log in memory beside all that it was ever given: the records appended to it and the
  snapshots stored in it. The log forgets both in time; what it holds at any time is a part of them.
-/
import StateTree.Log.Memory
import StateTree.Log.Replay

namespace StateTree

/-- A log and what it was ever given. -/
structure Ledger where
  log : MemoryLog
  /-- The records, in the order of their numbers. -/
  appended : List LogRecord
  /-- The snapshots, the oldest first. -/
  documents : List StateDocument

/-- The record that a call has appended. -/
def LogCall.appended {α : Type} : LogCall α → Except LogError α → List LogRecord
  | .append correlation body, .ok number => [⟨number, correlation, body⟩]
  | _, _ => []

/-- The snapshot that a call has stored. -/
def LogCall.stored {α : Type} : LogCall α → Except LogError α → List StateDocument
  | .replaceState _ document, .ok _ => [document]
  | .upgrade _ _ (some document), .ok _ => [document]
  | _, _ => []

namespace Ledger

/-- The ledger of a log that nothing has been written to. -/
def empty : Ledger := ⟨.empty, [], []⟩

/-- Have the log answer a call. -/
def answer (ledger : Ledger) {α : Type} (call : LogCall α) : Except LogError α × Ledger :=
  let (result, log) := ledger.log.answer call
  (result, ⟨log, ledger.appended ++ call.appended result, ledger.documents ++ call.stored result⟩)

/-- One ledger comes to be the other in time: nothing that was given is taken back, and what was
dropped stays dropped. -/
structure Grows (before after : Ledger) : Prop where
  appended : before.appended <+: after.appended
  documents : before.documents <+: after.documents
  first : before.log.first ≤ after.log.first

/-- The log holds the latest snapshot, and the records from some number on. -/
structure Tidy (ledger : Ledger) : Prop where
  numbered : ledger.appended.map LogRecord.number = List.range ledger.appended.length
  retained : ledger.log.records = (ledger.appended.drop ledger.log.first).reverse
  first_le : ledger.log.first ≤ ledger.appended.length
  latest : ledger.log.state = ledger.documents.getLast?

/-! ### Growth -/

theorem Grows.refl (ledger : Ledger) : ledger.Grows ledger :=
  ⟨List.prefix_rfl, List.prefix_rfl, Nat.le_refl _⟩

theorem Grows.trans {first second third : Ledger} (early : first.Grows second)
    (late : second.Grows third) : first.Grows third :=
  ⟨early.appended.trans late.appended, early.documents.trans late.documents,
    Nat.le_trans early.first late.first⟩

/-- A call only adds to the ledger. -/
theorem grows_answer (ledger : Ledger) {α : Type} (call : LogCall α) :
    ledger.Grows (ledger.answer call).2 := by
  refine ⟨List.prefix_append _ _, List.prefix_append _ _, ?_⟩
  cases call with
  | replaceState expected document =>
      simp only [answer, MemoryLog.answer]
      split <;> exact Nat.le_refl _
  | upgrade expected manifest document =>
      simp only [answer, MemoryLog.answer]
      split <;> exact Nat.le_refl _
  | readFrom position =>
      simp only [answer, MemoryLog.answer]
      split <;> exact Nat.le_refl _
  | discardBefore position => exact Nat.le_max_left _ _
  | _ => exact Nat.le_refl _

/-- A snapshot that a call has stored is the latest. -/
theorem getLast?_of_stored {ledger : Ledger} {α : Type} {call : LogCall α}
    {document : StateDocument} (member : document ∈ (ledger.answer call).2.documents)
    (new : document ∉ ledger.documents) :
    (ledger.answer call).2.documents.getLast? = some document := by
  have split : (ledger.answer call).2.documents =
      ledger.documents ++ call.stored (ledger.answer call).1 := rfl
  generalize (ledger.answer call).1 = result at split
  rw [split] at member ⊢
  have here := (List.mem_append.mp member).resolve_left new
  have only : call.stored result = [document] := by
    unfold LogCall.stored at here ⊢
    split at here
    · rw [List.mem_singleton.mp here]
    · rw [List.mem_singleton.mp here]
    · cases here
  rw [only]
  simp

/-! ### What the log holds -/

variable {ledger : Ledger}

theorem tidy_empty : empty.Tidy := ⟨rfl, rfl, Nat.le_refl _, rfl⟩

/-- The number of the next record is the number of records ever appended. -/
theorem Tidy.head_eq (tidy : ledger.Tidy) : ledger.log.head = ledger.appended.length := by
  obtain ⟨numbered, retained, first_le, -⟩ := tidy
  unfold MemoryLog.head
  rw [retained]
  rcases List.eq_nil_or_concat ledger.appended with none | ⟨init, last, split⟩
  · simp only [none, List.length_nil, Nat.le_zero_eq] at first_le ⊢
    simp [first_le]
  · simp only [split, List.concat_eq_append, List.length_append, List.length_singleton,
      List.map_append, List.map_cons, List.map_nil, List.range_succ] at numbered first_le ⊢
    have number : last.number = init.length := by
      have tail := List.append_inj_right' numbered rfl
      simpa using tail
    by_cases all : ledger.log.first ≤ init.length
    · rw [List.drop_append_of_le_length all]
      simp [number]
    · have none : ledger.log.first = init.length + 1 := by omega
      simp [none]

/-- The retained records from a position on are those that were appended from there on. -/
theorem Tidy.since_eq (tidy : ledger.Tidy) {position : Nat} (kept : ledger.log.first ≤ position) :
    ledger.log.since position = ledger.appended.drop position := by
  unfold MemoryLog.since
  rw [tidy.head_eq, tidy.retained, List.take_reverse, List.reverse_reverse, List.drop_drop,
    List.length_drop]
  have first_le := tidy.first_le
  by_cases inside : position ≤ ledger.appended.length
  · congr 1
    omega
  · rw [List.drop_eq_nil_of_le (by omega), List.drop_eq_nil_of_le (by omega)]

/-- Every call keeps a ledger tidy. -/
theorem Tidy.answer (tidy : ledger.Tidy) {α : Type} (call : LogCall α) :
    (ledger.answer call).2.Tidy := by
  have head := tidy.head_eq
  obtain ⟨numbered, retained, first_le, latest⟩ := tidy
  cases call with
  | replaceState expected document =>
      simp only [Ledger.answer, MemoryLog.answer]
      split
      · simp only [LogCall.appended, LogCall.stored, List.append_nil]
        exact ⟨numbered, retained, first_le, by simp⟩
      · simp only [LogCall.appended, LogCall.stored, List.append_nil]
        exact ⟨numbered, retained, first_le, latest⟩
  | upgrade expected manifest document =>
      simp only [Ledger.answer, MemoryLog.answer]
      split
      · cases document with
        | none =>
            simp only [LogCall.appended, LogCall.stored, List.append_nil]
            exact ⟨numbered, retained, first_le, latest⟩
        | some document =>
            simp only [LogCall.appended, LogCall.stored, List.append_nil]
            exact ⟨numbered, retained, first_le, by simp⟩
      · cases document with
        | none =>
            simp only [LogCall.appended, LogCall.stored, List.append_nil]
            exact ⟨numbered, retained, first_le, latest⟩
        | some document =>
            simp only [LogCall.appended, LogCall.stored, List.append_nil]
            exact ⟨numbered, retained, first_le, latest⟩
  | append correlation body =>
      simp only [Ledger.answer, MemoryLog.answer, LogCall.appended, LogCall.stored,
        List.append_nil]
      refine ⟨?_, ?_, ?_, latest⟩
      · simp [numbered, head, List.range_succ]
      · simp [retained, List.drop_append_of_le_length first_le]
      · simp only [List.length_append, List.length_singleton]
        omega
  | readFrom position =>
      simp only [Ledger.answer, MemoryLog.answer]
      split
      · simp only [LogCall.appended, LogCall.stored, List.append_nil]
        exact ⟨numbered, retained, first_le, latest⟩
      · simp only [LogCall.appended, LogCall.stored, List.append_nil]
        exact ⟨numbered, retained, first_le, latest⟩
  | discardBefore position =>
      simp only [Ledger.answer, MemoryLog.answer, LogCall.appended, LogCall.stored,
        List.append_nil]
      rw [head]
      generalize bound : max ledger.log.first (min position ledger.appended.length) = kept
      have kept_le : kept ≤ ledger.appended.length := by omega
      refine ⟨numbered, ?_, kept_le, latest⟩
      have same : ledger.log.first + (ledger.appended.length - ledger.log.first -
          (ledger.appended.length - kept)) = kept := by
        omega
      rw [retained, List.take_reverse, List.drop_drop, List.length_drop, same]
  | _ =>
      simp only [Ledger.answer, MemoryLog.answer, LogCall.appended, LogCall.stored,
        List.append_nil]
      exact ⟨numbered, retained, first_le, latest⟩

end Ledger

end StateTree
