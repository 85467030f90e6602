/-
Module: StateTree.Proofs.Sending
Purpose: The updates that are submitted to a replica, one after the other. Each is appended to the
  log by a call that is tried again while it fails for the time being. Others may use the log
  between any two calls, and any calls may fail. An update reaches the log once, or not at all.
-/
import StateTree.Deployment.Following
import StateTree.Proofs.Ledger

namespace StateTree

/-! ### Submitting to a replica -/

namespace Replica

variable {σ : Type}

/-- Submit an update to a replica whose log is called by `perform`. -/
def send (replica : Replica) (perform : {β : Type} → LogCall β → σ → Except LogError β × σ)
    (correlation : Uuid) (update : Update) (state : σ) (clock : Nat) :
    Except PipelineError Unit × σ × Nat :=
  if replica.isClosed then (.error .shutdown, state, clock)
  else
    let append := LogCall.append correlation (.update update)
    let (result, state, clock) := (replica.settings.attempt append).run perform state clock
    ((result.map fun _ => ()).mapError .ofLog, state, clock)

/-- Call the log of a replica in a deployment, through the tap on the way to it. -/
def reach (replica : Replica) (isCutOff : Bool) {β : Type} (call : LogCall β)
    (state : Tap LogShelf × LogShelf) : Except LogError β × (Tap LogShelf × LogShelf) :=
  if isCutOff then (.error (.backend "paused"), state)
  else Tap.perform (LogShelf.perform replica.store) call state

end Replica

theorem Replica.consult_eq_run (replica : Replica) (isCutOff : Bool) {α : Type}
    (program : LogProgram α) (shelf : LogShelf) (clock : Nat) :
    replica.consult isCutOff program shelf clock =
      let ended := program.run (replica.reach isCutOff) (replica.tap, shelf) clock
      ⟨ended.1, { replica with tap := ended.2.1.1 }, ended.2.1.2, ended.2.2⟩ := rfl

namespace Deployment

variable {deployment : Deployment} {number : Nat} {state : Replica}
  (found : deployment.replicas[number]? = some state)

include found

theorem replica_eq : replica number deployment = some (state, deployment) := by
  change (deployment.replicas[number]?).map _ = _
  rw [found]
  rfl

theorem consult_eq {α : Type} (program : LogProgram α) :
    consult number program deployment =
      let isCutOff := state.isPaused && (deployment.thread.id == .subscription number)
      let consulted := state.consult isCutOff program deployment.logs deployment.clock
      some (consulted.result,
        { deployment with
          replicas := deployment.replicas.set number consulted.replica
          logs := consulted.shelf
          clock := consulted.clock }) := by
  change (replica number deployment).bind _ = _
  rw [replica_eq found]
  rfl

/-- What is submitted to an open replica of a deployment is sent to its log under the next unique
identifier. -/
theorem submitToLog_eq_send (isOpen : state.isClosed = false) (update : Update) :
    let isCutOff := state.isPaused && (deployment.thread.id == .subscription number)
    let sent := state.send (state.reach isCutOff) (.fresh 0 deployment.minted) update
      (state.tap, deployment.logs) deployment.clock
    (submitToLog number update).run deployment =
      some (sent.1,
        { deployment with
          minted := deployment.minted + 1
          replicas := deployment.replicas.set number { state with tap := sent.2.1.1 }
          logs := sent.2.1.2
          clock := sent.2.2 }) := by
  let drawn : Deployment := { deployment with minted := deployment.minted + 1 }
  have there : drawn.replicas[number]? = some state := found
  have asked := consult_eq there
    (state.settings.attempt (.append (.fresh 0 deployment.minted) (.update update)))
  unfold submitToLog
  change ((replica number deployment).bind _).bind _ = _
  rw [replica_eq found]
  dsimp only [Option.bind_some, ExceptT.bindCont, pure, StateT.pure]
  rw [isOpen, if_neg Bool.false_ne_true]
  change ((consult number _ drawn).bind _).bind _ = _
  rw [asked]
  dsimp only [Replica.consult_eq_run, Replica.send]
  rw [isOpen, if_neg Bool.false_ne_true]
  generalize LogProgram.run _ _ _ _ = ended
  obtain ⟨result, ⟨tap, shelf⟩, clock⟩ := ended
  cases result <;> rfl

end Deployment

/-! ### A log among others -/

/-- A call of a log. -/
structure AnyCall : Type 1 where
  {α : Type}
  call : LogCall α

/-- What happens around the calls of a replica, which are numbered. -/
structure Surroundings : Type 1 where
  /-- What others ask the log just before a call. -/
  others : Nat → List AnyCall
  /-- The error that a call fails with, if it fails. -/
  fault? : Nat → Option LogError

/-- A log as a replica has come to it. -/
structure Connection where
  ledger : Ledger
  /-- How many calls the replica has made. -/
  calls : Nat
  /-- The records that these have appended. -/
  own : List LogRecord

/-- An update that was submitted, with the log before and after. -/
structure Sent where
  correlation : Uuid
  update : Update
  before : Connection
  after : Connection
  result : Except PipelineError Unit

namespace Sent

def isAccepted (sent : Sent) : Bool := sent.result.isOk

/-- What its record is to carry. -/
def content (sent : Sent) : Uuid × RecordBody := (sent.correlation, .update sent.update)

end Sent

/-- A log after it has answered some calls. -/
def Ledger.answerAll (ledger : Ledger) (calls : List AnyCall) : Ledger :=
  calls.foldl (fun ledger asked => (ledger.answer asked.call).2) ledger

namespace Connection

/-- A log that nothing has been written to, and that the replica has not called. -/
def new : Connection := ⟨.empty, 0, []⟩

/-- The replica makes its next call. A call that fails has no effect. -/
def perform (around : Surroundings) {β : Type} (call : LogCall β) (connection : Connection) :
    Except LogError β × Connection :=
  let ledger := connection.ledger.answerAll (around.others connection.calls)
  match around.fault? connection.calls with
  | some error => (.error error, ⟨ledger, connection.calls + 1, connection.own⟩)
  | none =>
      let (result, ledger) := ledger.answer call
      (result, ⟨ledger, connection.calls + 1, connection.own ++ call.appended result⟩)

end Connection

/-- What the records of the replica carry, with their correlations. -/
def Connection.contents (connection : Connection) : List (Uuid × RecordBody) :=
  connection.own.map fun record => (record.correlation, record.body)

/-- Submit updates one after the other, each under its correlation. -/
def Replica.sendAll (replica : Replica) (around : Surroundings) :
    List (Uuid × Update) → Connection → Nat → List Sent × Connection
  | [], connection, _ => ([], connection)
  | (correlation, update) :: rest, before, clock =>
      let sent := replica.send (Connection.perform around) correlation update before clock
      let ended := replica.sendAll around rest sent.2.1 sent.2.2
      (⟨correlation, update, before, sent.2.1, sent.1⟩ :: ended.1, ended.2)

/-! ### What every call keeps -/

theorem Ledger.Tidy.answerAll {ledger : Ledger} (tidy : ledger.Tidy) (calls : List AnyCall) :
    (ledger.answerAll calls).Tidy := by
  induction calls generalizing ledger with
  | nil => exact tidy
  | cons asked rest ih => exact ih (tidy.answer asked.call)

theorem Ledger.grows_answerAll (ledger : Ledger) (calls : List AnyCall) :
    ledger.Grows (ledger.answerAll calls) := by
  induction calls generalizing ledger with
  | nil => exact .refl ledger
  | cons asked rest ih => exact (ledger.grows_answer asked.call).trans (ih _)

namespace Connection

variable {around : Surroundings} {connection : Connection}

/-- The log has the records of the replica in the order in which it has appended them, and others
only if someone else uses the log. -/
structure Kept (around : Surroundings) (connection : Connection) : Prop where
  tidy : connection.ledger.Tidy
  among : connection.own.Sublist connection.ledger.appended
  alone : (∀ call, around.others call = []) → connection.ledger.appended = connection.own

theorem kept_new (around : Surroundings) : new.Kept around :=
  ⟨Ledger.tidy_empty, .slnil, fun _ => rfl⟩

theorem Kept.perform (kept : connection.Kept around) {β : Type} (call : LogCall β) :
    (connection.perform around call).2.Kept around := by
  obtain ⟨tidy, among, alone⟩ := kept
  have tidy := tidy.answerAll (around.others connection.calls)
  have among := among.trans
    (connection.ledger.grows_answerAll (around.others connection.calls)).appended.sublist
  have alone (none : ∀ call, around.others call = []) :
      (connection.ledger.answerAll (around.others connection.calls)).appended =
        connection.own := by
    rw [none]
    exact alone none
  unfold Connection.perform
  cases around.fault? connection.calls with
  | some error => exact ⟨tidy, among, alone⟩
  | none =>
      exact ⟨tidy.answer call, among.append (List.Sublist.refl _),
        fun none => congrArg (· ++ _) (alone none)⟩

/-- Every program keeps that, by induction on its calls. -/
theorem Kept.run {α : Type} (kept : connection.Kept around) (program : LogProgram α)
    (clock : Nat) :
    (program.run (Connection.perform around) connection clock).2.1.Kept around := by
  induction program generalizing connection clock with
  | done result => exact kept
  | rest time next ih => exact ih kept _
  | ask call next ih => exact ih _ (kept.perform call) clock

theorem Kept.send (kept : connection.Kept around) (replica : Replica) (correlation : Uuid)
    (update : Update) (clock : Nat) :
    (replica.send (Connection.perform around) correlation update connection clock).2.1.Kept
      around := by
  unfold Replica.send
  split
  · exact kept
  · exact kept.run _ clock

/-! ### One submission -/

/-- A call that fails leaves the records of the replica. -/
theorem perform_of_fault {error : LogError} (fault : around.fault? connection.calls = some error)
    {β : Type} (call : LogCall β) :
    ∃ ledger, connection.perform around call =
      (.error error, ⟨ledger, connection.calls + 1, connection.own⟩) := by
  rw [perform, fault]
  exact ⟨_, rfl⟩

/-- Any other one that is to append a record does so. -/
theorem perform_append (fine : around.fault? connection.calls = none) (correlation : Uuid)
    (body : RecordBody) :
    ∃ ledger number, connection.perform around (.append correlation body) =
      (.ok number,
        ⟨ledger, connection.calls + 1, connection.own ++ [⟨number, correlation, body⟩]⟩) := by
  rw [perform, fine]
  exact ⟨_, _, rfl⟩

/-- A record is appended at the first attempt that does not fail, and when all fail it is not. -/
theorem run_append
    (transient : ∀ call error, around.fault? call = some error → error.isTransient = true)
    (connection : Connection) (correlation : Uuid) (body : RecordBody) (delay : Nat → Nat)
    (failed retries clock : Nat) :
    let ran := (LogProgram.attempt (.append correlation body) delay failed retries).run
      (Connection.perform around) connection clock
    (∃ number attempt, attempt ≤ retries ∧ around.fault? (connection.calls + attempt) = none ∧
        ran.1 = .ok number ∧ ran.2.1.own = connection.own ++ [⟨number, correlation, body⟩]) ∨
      (∀ attempt, attempt < retries + 1 →
        ∃ error, around.fault? (connection.calls + attempt) = some error) ∧
        (∃ error, around.fault? (connection.calls + retries) = some error ∧
          ran.1 = .error error) ∧ ran.2.1.own = connection.own := by
  induction retries generalizing connection failed clock with
  | zero =>
      cases fault : around.fault? connection.calls with
      | some error =>
          obtain ⟨ledger, performed⟩ := perform_of_fault fault (.append correlation body)
          refine .inr ⟨fun attempt first => ?_, ⟨error, rfl, ?_⟩, ?_⟩
          · rw [Nat.lt_one_iff.mp first]
            exact ⟨error, fault⟩
          all_goals simp only [LogProgram.attempt, LogProgram.call, LogProgram.run, performed]
      | none =>
          obtain ⟨ledger, number, performed⟩ := perform_append fault correlation body
          refine .inl ⟨number, 0, Nat.le_refl 0, fault, ?_, ?_⟩
          all_goals simp only [LogProgram.attempt, LogProgram.call, LogProgram.run, performed]
  | succ retries ih =>
      cases fault : around.fault? connection.calls with
      | some error =>
          obtain ⟨ledger, performed⟩ := perform_of_fault fault (.append correlation body)
          simp only [LogProgram.attempt, LogProgram.run, performed, transient _ _ fault, if_true]
          have again := ih ⟨ledger, connection.calls + 1, connection.own⟩ (failed + 1)
            (clock + delay failed)
          have onward (attempt : Nat) :
              connection.calls + 1 + attempt = connection.calls + (attempt + 1) := by omega
          simp only [onward] at again
          refine again.imp ?_ ?_
          · rintro ⟨number, attempt, early, done⟩
            exact ⟨number, attempt + 1, Nat.succ_le_succ early, done⟩
          · rintro ⟨faults, done⟩
            exact ⟨Nat.forall_lt_succ_left.mpr ⟨⟨error, fault⟩, faults⟩, done⟩
      | none =>
          obtain ⟨ledger, number, performed⟩ := perform_append fault correlation body
          refine .inl ⟨number, 0, Nat.zero_le _, fault, ?_, ?_⟩
          all_goals simp only [LogProgram.attempt, LogProgram.run, performed]

end Connection

/-! ### Any number of submissions -/

/-- A submission has appended its record, and nothing else, or it has failed and appended nothing.
It has failed because all of its attempts have, as the last of them. -/
structure Sent.Settled (retries : Nat) (around : Surroundings) (sent : Sent) : Prop where
  accepted : sent.result = .ok () → ∃ number,
    sent.after.own = sent.before.own ++ [⟨number, sent.correlation, .update sent.update⟩]
  refused : ∀ error, sent.result = .error error →
    sent.after.own = sent.before.own ∧
      ∃ fault, around.fault? (sent.before.calls + retries) = some fault ∧ error = .ofLog fault
  exhausted : (∃ error, sent.result = .error error) ↔ ∀ attempt, attempt < retries + 1 →
    ∃ fault, around.fault? (sent.before.calls + attempt) = some fault

theorem Sent.Settled.contents {retries : Nat} {around : Surroundings} {sent : Sent}
    (settled : sent.Settled retries around) :
    sent.after.contents = sent.before.contents ++ ([sent].filter isAccepted).map content := by
  cases result : sent.result with
  | ok value =>
      obtain ⟨number, own⟩ := settled.accepted result
      simp [Connection.contents, own, isAccepted, content, result, Except.isOk, Except.toBool]
  | error error =>
      have own := (settled.refused error result).1
      simp [Connection.contents, own, isAccepted, result, Except.isOk, Except.toBool]

namespace Replica

variable {replica : Replica} (isOpen : replica.isClosed = false) {around : Surroundings}
  (transient : ∀ call error, around.fault? call = some error → error.isTransient = true)

include isOpen transient

theorem settled_send (correlation : Uuid) (update : Update) (before : Connection) (clock : Nat) :
    let sent := replica.send (Connection.perform around) correlation update before clock
    Sent.Settled replica.settings.maxRetries around
      ⟨correlation, update, before, sent.2.1, sent.1⟩ := by
  have ran := before.run_append transient correlation (.update update) replica.settings.backoff 0
    replica.settings.maxRetries clock
  simp only [send, isOpen, ReplicaSettings.attempt]
  generalize LogProgram.run _ _ _ _ = ended at ran
  obtain ⟨result, after, clock⟩ := ended
  rcases ran with ⟨number, attempt, early, fine, rfl, own⟩ | ⟨faults, ⟨fault, last, rfl⟩, own⟩
  · refine ⟨fun _ => ⟨number, own⟩, nofun, ⟨nofun, fun faults => ?_⟩⟩
    obtain ⟨fault, there⟩ := faults attempt (Nat.lt_succ_of_le early)
    rw [fine] at there
    cases there
  · refine ⟨nofun, fun error failed => ?_, ⟨fun _ => faults, fun _ => ⟨_, rfl⟩⟩⟩
    cases failed
    exact ⟨own, fault, last, rfl⟩

/-- A whole sequence of submissions, by induction on it: what each has appended follows what those
before it have. -/
theorem settled_sendAll (submissions : List (Uuid × Update)) (before : Connection) (clock : Nat)
    (kept : before.Kept around) :
    let ended := replica.sendAll around submissions before clock
    ended.1.map (fun sent => (sent.correlation, sent.update)) = submissions ∧
      (∀ sent ∈ ended.1, sent.Settled replica.settings.maxRetries around) ∧
      ended.2.contents = before.contents ++ (ended.1.filter Sent.isAccepted).map Sent.content ∧
      ended.2.Kept around := by
  induction submissions generalizing before clock with
  | nil => exact ⟨rfl, fun _ none => absurd none List.not_mem_nil, (List.append_nil _).symm, kept⟩
  | cons submission rest ih =>
      obtain ⟨correlation, update⟩ := submission
      have first := settled_send isOpen transient correlation update before clock
      have kept := kept.send replica correlation update clock
      simp only [sendAll]
      generalize replica.send _ correlation update before clock = sent at first kept
      obtain ⟨result, after, later⟩ := sent
      obtain ⟨same, settled, contents, kept⟩ := ih after later kept
      refine ⟨by rw [List.map_cons, same], List.forall_mem_cons.mpr ⟨first, settled⟩, ?_, kept⟩
      rw [contents, first.contents, List.append_assoc, ← List.map_append, ← List.filter_append]
      rfl

/-- Updates reach the log once, or not at all. Let any updates be submitted to an open replica, one
after the other. Between its calls of the log others may make any calls of their own, and any of its
calls may fail for the time being, with no effect. Then each submission that is accepted has
appended one record, which carries that update, and each that fails has appended nothing; and it
fails exactly when its first `maxRetries + 1` attempts all do. What the submissions have appended
stands in the log in their order, under increasing numbers; and if nobody else has used the log, it
is all that the log was given. -/
theorem sent_once (submissions : List (Uuid × Update)) (clock : Nat) :
    let ended := replica.sendAll around submissions .new clock
    ended.1.map (fun sent => (sent.correlation, sent.update)) = submissions ∧
      (∀ sent ∈ ended.1, sent.Settled replica.settings.maxRetries around) ∧
      ended.2.contents = (ended.1.filter Sent.isAccepted).map Sent.content ∧
      ended.2.own.Sublist ended.2.ledger.appended ∧
      ended.2.ledger.appended.map LogRecord.number =
        List.range ended.2.ledger.appended.length ∧
      ((∀ call, around.others call = []) → ended.2.ledger.appended = ended.2.own) := by
  obtain ⟨same, settled, contents, kept⟩ :=
    settled_sendAll isOpen transient submissions .new clock (Connection.kept_new around)
  exact ⟨same, settled, contents, kept.among, kept.tidy.numbered, kept.alone⟩

end Replica

namespace Sample

/-- An open replica that makes two attempts at most. -/
def impatient : Replica := .new 0 0 { ReplicaSettings.standard with maxRetries := 1 } .clear

/-- The first call fails, and so do the third and the fourth. Someone else appends a barrier before
the second one. -/
def stormy : Surroundings :=
  ⟨fun call => if call = 1 then [⟨.append (Uuid.ofNat 9) .barrier⟩] else [],
    fun call => if call ∈ [0, 2, 3] then some .io else none⟩

def retitling (title : String) : Update := ⟨.replacement (.ofNames ["title"]) (.str title), default⟩

/-- Three titles, one after the other. -/
def titles : List (Uuid × Update) :=
  [(Uuid.ofNat 0, retitling "first"), (Uuid.ofNat 1, retitling "second"),
    (Uuid.ofNat 2, retitling "third")]

/-- The second submission fails, and the log has the first and the third. -/
theorem stormy_sent_once :
    let ended := impatient.sendAll stormy titles .new 0
    ended.1.map Sent.isAccepted = [true, false, true] ∧
      ended.2.contents =
        [(Uuid.ofNat 0, .update (retitling "first")),
          (Uuid.ofNat 2, .update (retitling "third"))] ∧
      ∀ sent ∈ ended.1, sent.Settled 1 stormy := by
  have transient (call : Nat) (error : LogError) (fault : stormy.fault? call = some error) :
      error.isTransient = true := by
    change (if call ∈ [0, 2, 3] then some LogError.io else none) = some error at fault
    split at fault
    · cases fault
      rfl
    · cases fault
  have isOpen : impatient.isClosed = false := rfl
  obtain ⟨-, settled, -⟩ := Replica.sent_once isOpen transient titles 0
  exact ⟨by decide +kernel, by decide +kernel, settled⟩

end Sample

end StateTree
