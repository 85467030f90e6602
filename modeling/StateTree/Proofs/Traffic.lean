/-
Module: StateTree.Proofs.Traffic
Purpose: Those who call the replicas of a log, each on a thread of its own, while the replicas
  follow the log. Whoever submits appends an update. Whoever flushes appends a barrier, waits until
  the replica has passed it, and then until the site has done all the work that it has by then.
-/
import StateTree.Pipeline.Error
import StateTree.Proofs.Courses

namespace StateTree

/-- What is asked of a replica. -/
inductive Request where
  | submit (update : Update)
  | flush

namespace Request

/-- What is appended for a request. -/
def body : Request → RecordBody
  | .submit update => .update update
  | .flush => .barrier

def isFlush : Request → Bool
  | .submit _ => false
  | .flush => true

theorem eq_flush {request : Request} (flushes : request.isFlush = true) : request = .flush := by
  cases request with
  | submit update => cases flushes
  | flush => rfl

end Request

/-- How far a call has come. -/
inductive Progress : Type 1 where
  | appending (program : LogProgram Nat)
  /-- The barrier of a number is to be passed. -/
  | awaiting (barrier : Nat)
  | passed (barrier : Nat)
  /-- The site is to do its first `target` items of work. -/
  | settling (barrier target : Nat)
  /-- At a moment the call has returned; a result names the record that was appended. -/
  | returned (result : Except PipelineError Nat) (moment : Nat)

/-- The number of the record of a call that has returned well, and the moment. -/
def Progress.accepted? : Progress → Option (Nat × Nat)
  | .returned (.ok number) moment => some (number, moment)
  | _ => none

/-- Who has been accepted was given the number of the record, at a moment. -/
theorem Progress.accepted?_eq_some {progress : Progress} {number moment : Nat}
    (accepted : progress.accepted? = some (number, moment)) :
    progress = .returned (.ok number) moment := by
  unfold accepted? at accepted
  split at accepted
  · cases accepted
    rfl
  · cases accepted

/-- A call of a replica, not on the thread that follows the log. -/
structure Visit : Type 1 where
  /-- The number of the peer. -/
  peer : Nat
  request : Request
  correlation : Uuid
  /-- Whether it is made by the one who does the work of the site, from a hook. -/
  isInside : Bool
  /-- Whether it is made before the site has published its first root. -/
  isEarly : Bool
  /-- When it was made. -/
  called : Nat
  progress : Progress

namespace Visit

variable {κ : Type}

/-- Make a call of a peer at a moment. A closed replica takes no updates. -/
def new (number : Nat) (peer : Peer κ) (request : Request) (correlation : Uuid) (isInside : Bool)
    (moment : Nat) : Visit :=
  ⟨number, request, correlation, isInside, !peer.isOpen, moment,
    if peer.replica.isClosed && !request.isFlush then .returned (.error .shutdown) moment
    else .appending (peer.replica.settings.attempt (.append correlation request.body))⟩

/-- How far a call is after its next step, and the ledger then. Who does the work of the site does
not wait for it. -/
def proceed (visit : Visit) (peer : Peer κ) (ledger : Ledger) (moment : Nat) : Progress × Ledger :=
  match visit.progress with
  | .appending program =>
      match program.result? with
      | none => (.appending (program.advance ledger).1, (program.advance ledger).2)
      | some (.error error) => (.returned (.error (.ofLog error)) moment, ledger)
      | some (.ok number) =>
          if visit.request.isFlush then (.awaiting number, ledger)
          else (.returned (.ok number) moment, ledger)
  | .awaiting barrier =>
      if peer.replica.isClosed then (.returned (.error .shutdown) moment, ledger)
      else if peer.replica.hasPassed barrier then (.passed barrier, ledger)
      else (.awaiting barrier, ledger)
  | .passed barrier =>
      if visit.isInside then (.returned (.ok barrier) moment, ledger)
      else (.settling barrier peer.workplace.site.queue.enqueued, ledger)
  | .settling barrier target =>
      if peer.workplace.site.queue.hasReached target then (.returned (.ok barrier) moment, ledger)
      else (.settling barrier target, ledger)
  | .returned result since => (.returned result since, ledger)

/-- How far a call is when the time for its barrier is up. -/
def expire (visit : Visit) (peer : Peer κ) (moment : Nat) : Progress :=
  match visit.progress with
  | .awaiting barrier =>
      if peer.replica.isClosed || peer.replica.hasPassed barrier then .awaiting barrier
      else .returned (.error (.flushFailure .timeout)) moment
  | progress => progress

/-- How far a call is after the next call that it makes of the log has failed. -/
def refuse (visit : Visit) (error : LogError) : Progress :=
  match visit.progress with
  | .appending program =>
      if error.isTransient then .appending (program.refuse error) else .appending program
  | progress => progress

end Visit

/-- The peers of a log and all calls that were ever made of them. Each step takes a moment. -/
structure Traffic (κ : Type) where
  fleet : Fleet κ
  visits : List Visit
  clock : Nat

/-- A step of the peers or of someone who calls them. -/
inductive TrafficEvent (κ : Type) where
  | fleet (event : FleetEvent κ)
  | call (peer : Nat) (request : Request) (correlation : Uuid) (isInside : Bool)
  | proceed (visit : Nat)
  | refuse (visit : Nat) (error : LogError)
  | expire (visit : Nat)

namespace Traffic

variable {κ : Type}

def empty : Traffic κ := ⟨.empty, [], 0⟩

/-- The ledger of the log. -/
def ledger (traffic : Traffic κ) : Ledger := traffic.fleet.pool.ledger

/-- A visit has come to be so far, and the log is as it left it. -/
def move (traffic : Traffic κ) (index : Nat) (visit : Visit) (moved : Progress × Ledger) :
    Traffic κ :=
  { traffic with
    fleet := { traffic.fleet with pool := { traffic.fleet.pool with ledger := moved.2 } }
    visits := traffic.visits.set index { visit with progress := moved.1 } }

/-- The traffic after a step, but for the time. -/
def act (schema : Schema) (traffic : Traffic κ) : TrafficEvent κ → Traffic κ
  | .fleet event => { traffic with fleet := traffic.fleet.after schema event }
  | .call number request correlation isInside =>
      match traffic.fleet.peers[number]? with
      | some peer =>
          let visit := Visit.new number peer request correlation isInside traffic.clock
          { traffic with visits := traffic.visits ++ [visit] }
      | none => traffic
  | .proceed index =>
      match traffic.visits[index]? with
      | some visit =>
          match traffic.fleet.peers[visit.peer]? with
          | some peer =>
              traffic.move index visit (visit.proceed peer traffic.ledger traffic.clock)
          | none => traffic
      | none => traffic
  | .refuse index error =>
      match traffic.visits[index]? with
      | some visit => traffic.move index visit (visit.refuse error, traffic.ledger)
      | none => traffic
  | .expire index =>
      match traffic.visits[index]? with
      | some visit =>
          match traffic.fleet.peers[visit.peer]? with
          | some peer =>
              traffic.move index visit (visit.expire peer traffic.clock, traffic.ledger)
          | none => traffic
      | none => traffic

/-- The traffic after a step. -/
def after (schema : Schema) (traffic : Traffic κ) (event : TrafficEvent κ) : Traffic κ :=
  { traffic.act schema event with clock := traffic.clock + 1 }

/-- The traffic after steps from the start. -/
def run (schema : Schema) (events : List (TrafficEvent κ)) : Traffic κ :=
  events.foldl (after schema) empty

/-- A run with one more step is the run before it and then that step. -/
theorem run_concat (schema : Schema) (events : List (TrafficEvent κ)) (event : TrafficEvent κ) :
    run schema (events ++ [event]) = (run schema events).after schema event :=
  List.foldl_append

end Traffic

end StateTree
