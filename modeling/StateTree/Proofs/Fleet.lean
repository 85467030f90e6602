/-
Module: StateTree.Proofs.Fleet
Purpose: Any number of sites on one log, each of them behind a replica. The thread of each replica
  joins the log and does its chores one step at a time; what is submitted is appended. The calls of
  all of them and the work of their sites are interleaved in any way.
-/
import StateTree.Log.Chore
import StateTree.Proofs.Interleaving
import StateTree.Proofs.Readers
import StateTree.Proofs.Workplace
import StateTree.Schema.Validate

namespace StateTree

/-- What a program has ended with. -/
def LogProgram.result? {α : Type} : LogProgram α → Option (Except LogError α)
  | .done result => some result
  | _ => none

/-- What the thread of a replica is at. -/
inductive Errand where
  | joining (program : LogProgram (Nat × Node))
  | following (chore : Chore)

namespace Chore

/-- The log answers the next call. -/
def answered (ledger : Ledger) : Chore → Chore × Ledger
  | .consult program next => (.consult (program.advance ledger).1 next, (program.advance ledger).2)
  | chore => (chore, ledger)

/-- The next call fails. -/
def refused (error : LogError) : Chore → Chore
  | .consult program next => .consult (program.refuse error) next
  | chore => chore

/-- How many records the site has got that the replica has not noted. Others can see the replica in
between only if they do not wait for the lock under which records are applied. -/
def inHand : Chore → Nat
  | .advance _ _ => 1
  | _ => 0

end Chore

namespace Errand

/-- The log answers the next call. -/
def answered (ledger : Ledger) : Errand → Errand × Ledger
  | .joining program => (.joining (program.advance ledger).1, (program.advance ledger).2)
  | .following chore => (.following (chore.answered ledger).1, (chore.answered ledger).2)

/-- The next call fails. -/
def refused (error : LogError) : Errand → Errand
  | .joining program => .joining (program.refuse error)
  | .following chore => .following (chore.refused error)

def isJoining : Errand → Bool
  | .joining _ => true
  | .following _ => false

def inHand : Errand → Nat
  | .joining _ => 0
  | .following chore => chore.inHand

end Errand

/-- A site behind a replica. -/
structure Peer (κ : Type) where
  workplace : Workplace κ
  replica : Replica
  errand : Errand
  /-- The root that the log has supplied, until the site publishes it. -/
  supplied : Option Node
  /-- Whether a snapshot has ever taken the place of the tree. -/
  hasReloaded : Bool

/-- A step of a peer. -/
inductive PeerEvent (κ : Type) where
  /-- The log answers the next call of the thread. -/
  | call
  /-- The next call of the thread fails, with no effect. -/
  | refuse (error : LogError)
  /-- The thread goes on from what it has. -/
  | act (moment : Nat)
  /-- The site starts from the root that was supplied. -/
  | launch
  /-- The drainer of the site takes a step. -/
  | work
  | register (name : String) (scope : Accessor) (priority : Int) (payload : κ)
  | close

namespace Peer

variable {κ : Type}

/-- A new site, with the root that it gives to a log without a snapshot. -/
def new (schema : Schema) (number : Nat) (name : String) (identity : Identifier)
    (settings : ReplicaSettings) (standard : Node) : Peer κ :=
  ⟨⟨.new name identity schema, .absent⟩, .new number 0 settings .clear,
    .joining (settings.join schema standard), none, false⟩

/-- Whether the site has published its first root. -/
def isOpen (peer : Peer κ) : Bool := !peer.errand.isJoining && peer.supplied.isNone

/-- The thread goes on with a chore, and looks at the log again when there is none left. -/
def pursue (schema : Schema) (peer : Peer κ) (moment : Nat) : Chore → Peer κ
  | .rest _ =>
      if peer.replica.isRunning then { peer with errand := .following (.catchUp schema) } else peer
  | .consult program next =>
      match program.result? with
      | some result => { peer with errand := .following (next result) }
      | none => peer
  | .look next => { peer with errand := .following (next peer.replica) }
  | .pass record next =>
      { peer with
        workplace := peer.workplace.receive record
        errand := .following next }
  | .advance number next =>
      { peer with
        replica := peer.replica.advance number moment
        errand := .following next }
  | .takeOver position root next =>
      { peer with
        workplace := peer.workplace.offer (.apply ⟨.replacement .root root, .empty⟩)
        replica := peer.replica.jump position moment
        errand := .following next
        hasReloaded := true }
  | .compacted next =>
      { peer with
        replica := peer.replica.compacted
        errand := .following next }

/-- The thread goes on. Once it has joined it follows the log. -/
def act (schema : Schema) (peer : Peer κ) (moment : Nat) : Peer κ :=
  match peer.errand with
  | .joining program =>
      match program.result? with
      | some (.ok (position, root)) =>
          { peer with
            replica := peer.replica.startAt position
            errand := .following (.catchUp schema)
            supplied := some root }
      | _ => peer
  | .following chore => peer.pursue schema moment chore

/-- The site starts from the root that was supplied, if it is valid. -/
def launch (schema : Schema) (peer : Peer κ) : Peer κ :=
  match peer.supplied with
  | some supplied =>
      let root := schema.polyfill supplied
      match schema.validate root with
      | .ok () =>
          { peer with
            workplace := peer.workplace.change (peer.workplace.site.start root)
            supplied := none }
      | .error _ => peer
  | none => peer

/-- A peer after a step, and the ledger then. -/
def after (schema : Schema) (peer : Peer κ) (ledger : Ledger) :
    PeerEvent κ → Peer κ × Ledger
  | .call =>
      ({ peer with errand := (peer.errand.answered ledger).1 },
        (peer.errand.answered ledger).2)
  | .refuse error =>
      if error.isTransient then ({ peer with errand := peer.errand.refused error }, ledger)
      else (peer, ledger)
  | .act moment => (peer.act schema moment, ledger)
  | .launch => (peer.launch schema, ledger)
  | .work => ({ peer with workplace := peer.workplace.step }, ledger)
  | .register name scope priority payload =>
      let registered := peer.workplace.site.register name scope priority payload
      ({ peer with workplace := peer.workplace.change registered }, ledger)
  | .close => ({ peer with replica := peer.replica.close }, ledger)

end Peer

/-- A step of the peers of a log, or of one of the tasks of those who submit. -/
inductive FleetEvent (κ : Type) where
  | enroll (name : String) (identity : Identifier) (settings : ReplicaSettings) (standard : Node)
  /-- Append what someone, or a hook, submits through a peer, or a barrier when it is flushed. -/
  | submit (index : Nat) (correlation : Uuid) (body : RecordBody)
  | proceed (task : Nat)
  | refuse (task : Nat) (error : LogError)
  | peer (index : Nat) (event : PeerEvent κ)

/-- A log with the appends that are under way, and the peers. -/
structure Fleet (κ : Type) where
  pool : LogPool
  peers : List (Peer κ)

namespace Fleet

variable {κ : Type}

def empty : Fleet κ := ⟨.empty, []⟩

/-- The fleet after a step. -/
def after (schema : Schema) (fleet : Fleet κ) : FleetEvent κ → Fleet κ
  | .enroll name identity settings standard =>
      let peer := Peer.new schema fleet.peers.length name identity settings standard
      { fleet with peers := fleet.peers ++ [peer] }
  | .submit index correlation body =>
      match fleet.peers[index]? with
      | some peer =>
          if peer.replica.isClosed then fleet
          else
            let task := LogTask.append peer.replica.settings correlation body
            { fleet with
              pool := { fleet.pool with tasks := fleet.pool.tasks ++ [task.program schema] } }
      | none => fleet
  | .proceed task => { fleet with pool := fleet.pool.after schema (.proceed task) }
  | .refuse task error => { fleet with pool := fleet.pool.after schema (.refuse task error) }
  | .peer index event =>
      match fleet.peers[index]? with
      | some peer =>
          let (now, ledger) := peer.after schema fleet.pool.ledger event
          ⟨{ fleet.pool with ledger := ledger }, fleet.peers.set index now⟩
      | none => fleet

/-- The fleet after steps from the start. -/
def run (schema : Schema) (events : List (FleetEvent κ)) : Fleet κ :=
  events.foldl (after schema) empty

/-- A run with one more step is the run before it and then that step. -/
theorem run_concat (schema : Schema) (events : List (FleetEvent κ)) (event : FleetEvent κ) :
    run schema (events ++ [event]) = (run schema events).after schema event :=
  List.foldl_append

end Fleet

end StateTree
