/-
Module: StateTree.Proofs.Chores
Purpose: What the thread of a replica does with its log, whichever invariant of the log all who call
  it keep: it hands the records on in their order and without a gap, and notes each of them once it
  has handed it on.
-/
import StateTree.Proofs.Fleet

namespace StateTree

variable {schema : Schema} {invariant : Ledger → Prop} {kind : ReplicaSettings → Prop}
  {ledger before after : Ledger}

/-- What a program ensures holds of what it has ended with. -/
theorem LogProgram.Ensures.result {α : Type} {post : Except LogError α → Ledger → Prop}
    {program : LogProgram α} (ensures : program.Ensures invariant post ledger)
    {result : Except LogError α} (ended : program.result? = some result) : post result ledger := by
  cases program with
  | done other =>
      cases ended
      exact ensures
  | rest time next => cases ended
  | ask call next => cases ended

/-- What a result says of the log stays true while the log grows, if what each value says does. -/
theorem LogProgram.stable_returns {α : Type} (post : α → Ledger → Prop)
    (stable : ∀ value, Stable (post value)) (result : Except LogError α) :
    Stable (Returns post result) := by
  intro before after grows holds value same
  exact stable value before after grows (holds value same)

theorem Ledger.Grows.getElem?_eq {position : Nat} {record : LogRecord} (grows : before.Grows after)
    (found : before.appended[position]? = some record) :
    after.appended[position]? = some record := by
  obtain ⟨more, appended⟩ := grows.appended
  rw [← appended, List.getElem?_append_left (List.getElem?_eq_some_iff.mp found).1]
  exact found

/-! ### Chores -/

namespace Chore

open LogProgram (Ensures Returns)
open ReplicaSettings (Pending)

/-- What replicas run on a log when they follow it, by their settings, keeps an invariant of the
log, and gives them what there is to apply. -/
structure Upholds (schema : Schema) (invariant : Ledger → Prop) (kind : ReplicaSettings → Prop) :
    Prop where
  compacts : ∀ (settings : ReplicaSettings) (ledger : Ledger) (position : Nat), kind settings →
    position ≤ ledger.appended.length →
      (settings.compact schema position).Ensures invariant (fun _ _ => True) ledger
  catchesUp : ∀ (settings : ReplicaSettings) (ledger : Ledger) (position : Nat), kind settings →
    position ≤ ledger.appended.length →
      (settings.catchUp schema position).Ensures invariant
        (Returns fun arrears later => Pending later position arrears) ledger

/-- What a chore of a replica does, from a position on, heeds the log: it hands on the record of the
position, and notes that record when it has handed it on. `hand` is the number of records handed on
and not noted yet. -/
def Heeds (invariant : Ledger → Prop) (kind : ReplicaSettings → Prop) :
    Chore → Ledger → Nat → Nat → Prop
  | .rest _, _, _, hand => hand = 0
  | .consult program next, ledger, position, hand =>
      hand = 0 ∧ program.Ensures invariant
        (fun result later => (next result).Heeds invariant kind later position 0) ledger
  | .look next, ledger, position, hand =>
      hand = 0 ∧ ∀ replica : Replica, replica.position = position → kind replica.settings →
        (next replica).Heeds invariant kind ledger position 0
  | .pass record next, ledger, position, hand =>
      hand = 0 ∧ ledger.appended[position]? = some record ∧
        next.Heeds invariant kind ledger position 1
  | .advance number next, ledger, position, hand =>
      hand = 1 ∧ ledger.appended[position]?.map LogRecord.number = some number ∧
        next.Heeds invariant kind ledger (position + 1) 0
  | .takeOver target _ next, ledger, _, hand =>
      hand = 0 ∧ target ≤ ledger.appended.length ∧ next.Heeds invariant kind ledger target 0
  | .compacted next, ledger, position, hand =>
      hand = 0 ∧ next.Heeds invariant kind ledger position 0

variable {chore : Chore} {position hand : Nat}

/-- How much is handed on and not noted yet can be told from the chore. -/
theorem Heeds.inHand_eq (heeds : chore.Heeds invariant kind ledger position hand) :
    chore.inHand = hand := by
  cases chore with
  | rest isRead => exact Eq.symm heeds
  | _ => exact heeds.1.symm

/-- The log may grow before the chore goes on. -/
theorem Heeds.later (heeds : chore.Heeds invariant kind before position hand)
    (grows : before.Grows after) : chore.Heeds invariant kind after position hand := by
  induction chore generalizing before after position hand with
  | rest isRead => exact heeds
  | consult program next ih =>
      obtain ⟨none, ensures⟩ := heeds
      exact ⟨none, ensures.later (fun result early late further holds =>
        ih result holds further) grows⟩
  | look next ih =>
      obtain ⟨none, seen⟩ := heeds
      exact ⟨none, fun replica here suits => ih replica (seen replica here suits) grows⟩
  | pass record next ih =>
      obtain ⟨none, found, rest⟩ := heeds
      exact ⟨none, grows.getElem?_eq found, ih rest grows⟩
  | advance number next ih =>
      obtain ⟨one, numbered, rest⟩ := heeds
      obtain ⟨record, found, same⟩ := Option.map_eq_some_iff.mp numbered
      exact ⟨one, Option.map_eq_some_iff.mpr ⟨record, grows.getElem?_eq found, same⟩,
        ih rest grows⟩
  | takeOver target root next ih =>
      obtain ⟨none, inside, rest⟩ := heeds
      exact ⟨none, Nat.le_trans inside grows.appended.length_le, ih rest grows⟩
  | compacted next ih =>
      obtain ⟨none, rest⟩ := heeds
      exact ⟨none, ih rest grows⟩

section Upholds

variable (upholds : Upholds schema invariant kind)

include upholds

theorem heeds_compacting (inside : position ≤ ledger.appended.length) :
    (compacting schema).Heeds invariant kind ledger position 0 := by
  refine ⟨rfl, fun replica here suits => ?_⟩
  subst here
  simp only
  split
  · refine ⟨rfl, (upholds.compacts _ ledger _ suits inside).weaken fun result later _ => ?_⟩
    dsimp only
    split
    · exact ⟨rfl, rfl⟩
    · exact ⟨rfl, rfl⟩
    · exact Eq.refl 0
  · exact Eq.refl 0

/-- To hand records on and note them one after the other heeds the log, by induction on the records
that there are to apply. -/
theorem heeds_applying {records : List LogRecord}
    (pending : Pending ledger position (.records records)) :
    (applying records (compacting schema)).Heeds invariant kind ledger position 0 := by
  induction records generalizing position with
  | nil =>
      obtain ⟨stop, onward, inside, -⟩ := pending
      exact heeds_compacting upholds (Nat.le_trans onward inside)
  | cons record rest ih =>
      obtain ⟨stop, -, inside, split⟩ := pending
      obtain ⟨found, early, others⟩ := Ledger.between_cons split.symm
      refine ⟨rfl, found, rfl, ?_, ih ⟨stop, early, inside, others.symm⟩⟩
      rw [found]
      rfl

/-- Catching up heeds the log from any position that it has come to. -/
theorem heeds_catchUp (inside : position ≤ ledger.appended.length) :
    (catchUp schema).Heeds invariant kind ledger position 0 := by
  refine ⟨rfl, fun replica here suits => ?_⟩
  subst here
  refine ⟨rfl, (upholds.catchesUp _ ledger _ suits inside).weaken fun result later read => ?_⟩
  dsimp only
  split
  · exact Eq.refl 0
  · exact ⟨rfl, read _ rfl, Eq.refl 0⟩
  · exact heeds_applying upholds (read _ rfl)

end Upholds

end Chore

/-! ### What the thread is at -/

namespace Errand

open LogProgram (Ensures Returns)
open ReplicaSettings (Loaded)

/-- What the thread of a replica at a position does heeds the log. -/
def Heeds (schema : Schema) (invariant : Ledger → Prop) (kind : ReplicaSettings → Prop)
    (ledger : Ledger) (position : Nat) : Errand → Prop
  | .joining program =>
      program.Ensures invariant
        (Returns fun joined later => Loaded schema later joined.1 joined.2) ledger
  | .following chore => chore.Heeds invariant kind ledger position chore.inHand

variable {errand : Errand} {position : Nat}

theorem heeds_following {chore : Chore} {hand : Nat}
    (heeds : chore.Heeds invariant kind ledger position hand) :
    (following chore).Heeds schema invariant kind ledger position := by
  rw [← heeds.inHand_eq] at heeds
  exact heeds

theorem Heeds.later (heeds : errand.Heeds schema invariant kind before position)
    (grows : before.Grows after) : errand.Heeds schema invariant kind after position := by
  cases errand with
  | joining program =>
      have stable := LogProgram.stable_returns
        (fun (joined : Nat × Node) later => Loaded schema later joined.1 joined.2)
        fun joined => ReplicaSettings.stable_loaded joined.1 joined.2
      exact Ensures.later stable heeds grows
  | following chore => exact Chore.Heeds.later heeds grows

/-- The answer to the next call keeps the invariant of the log. -/
theorem Heeds.answered (heeds : errand.Heeds schema invariant kind ledger position)
    (holds : invariant ledger) :
    invariant (errand.answered ledger).2 ∧ ledger.Grows (errand.answered ledger).2 ∧
      (errand.answered ledger).1.Heeds schema invariant kind (errand.answered ledger).2
        position := by
  cases errand with
  | joining program => exact Ensures.advance heeds holds
  | following chore =>
      cases chore with
      | consult program next =>
          obtain ⟨kept, grows, rest⟩ := heeds.2.advance holds
          exact ⟨kept, grows, rfl, rest⟩
      | _ => exact ⟨holds, .refl ledger, heeds⟩

/-- What comes of a call that failed for the time being heeds the log as well. -/
theorem Heeds.refused (heeds : errand.Heeds schema invariant kind ledger position)
    (holds : invariant ledger) {error : LogError} (transient : error.isTransient = true) :
    (errand.refused error).Heeds schema invariant kind ledger position := by
  cases errand with
  | joining program => exact Ensures.refuse heeds holds transient
  | following chore =>
      cases chore with
      | consult program next => exact ⟨rfl, heeds.2.refuse holds transient⟩
      | _ => exact heeds

/-- An answer changes neither whether the thread has joined nor what it has in hand. -/
theorem same_answered (errand : Errand) (ledger : Ledger) :
    (errand.answered ledger).1.isJoining = errand.isJoining ∧
      (errand.answered ledger).1.inHand = errand.inHand := by
  cases errand with
  | joining program => exact ⟨rfl, rfl⟩
  | following chore => cases chore <;> exact ⟨rfl, rfl⟩

theorem same_refused (errand : Errand) (error : LogError) :
    (errand.refused error).isJoining = errand.isJoining ∧
      (errand.refused error).inHand = errand.inHand := by
  cases errand with
  | joining program => exact ⟨rfl, rfl⟩
  | following chore => cases chore <;> exact ⟨rfl, rfl⟩

end Errand

end StateTree
