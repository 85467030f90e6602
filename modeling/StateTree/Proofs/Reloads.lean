/-
Module: StateTree.Proofs.Reloads
Purpose: When root and position of a site move together as its replica reloads, and which logs store
  valid trees only: those whose peers bring valid trees, and updates that leave each entity the
  identifier that is its key.
-/
import StateTree.Proofs.Replication
import StateTree.Proofs.TakeOvers

namespace StateTree

/-! ### Logs that store valid trees only -/

/-- An update of a record gives no entity another identifier than its key. -/
def RecordBody.KeepsKeys (schema : Schema) : RecordBody → Prop
  | .update change => ¬ change.operation.RekeysEntity schema
  | .barrier => True

/-- The first snapshot of a log encodes a regular tree that is valid once it is completed. -/
def StateDocument.OpensValid (schema : Schema) (format : StateFormat) (document : StateDocument) :
    Prop :=
  ∃ root head, document = .ofNode root format 1 head ∧ root.Regular ∧ format.Holds root ∧
    schema.Valid (schema.polyfill root)

/-- What a step brings to the log, a tree or an update, keeps the tree valid. -/
def FleetEvent.KeepsValid {κ : Type} (schema : Schema) : FleetEvent κ → Prop
  | .enroll _ _ _ standard => schema.Valid (schema.polyfill standard)
  | .submit _ _ body => body.KeepsKeys schema
  | _ => True

/-- What peers that bring valid trees and updates keep of the log they share. -/
def Ledger.Guarded (schema : Schema) (format : StateFormat) : Ledger → Prop :=
  Ledger.Tended (Ledger.Governed schema format) (StateDocument.OpensValid schema format) format
    (RecordBody.KeepsKeys schema)

section Guarded

variable {schema : Schema} {format : StateFormat} {ledger : Ledger}

theorem FleetEvent.KeepsValid.adds {κ : Type} {event : FleetEvent κ}
    (keeps : event.KeepsValid schema) (regular : event.Regular format) :
    event.Adds (StateDocument.OpensValid schema format) format (RecordBody.KeepsKeys schema) := by
  cases event with
  | enroll name identity settings standard =>
      obtain ⟨prefers, regular, holds⟩ := regular
      exact ⟨prefers, fun head => ⟨standard, head, rfl, regular, holds, keeps⟩⟩
  | submit index correlation body => exact keeps
  | _ => trivial

/-- Records that keep the keys of entities keep a tree valid. -/
theorem Ledger.Uniform.fold_valid (uniform : ledger.Uniform format (RecordBody.KeepsKeys schema))
    (distinct : schema.DistinctFields) (start stop : Nat) {root : Node}
    (valid : schema.Valid root) : schema.Valid (ledger.fold schema start stop root) :=
  uniform.fold_keeps schema.Valid (fun _ _ _ keeps valid applied =>
    (Operation.valid_apply_iff valid applied).mpr
      ((Operation.admissible_iff distinct applied).mpr keeps)) start stop valid

/-- All snapshots of a guarded log have valid trees. -/
theorem Ledger.Guarded.storesValid (guarded : ledger.Guarded schema format)
    (distinct : schema.DistinctFields) (fit : schema.DefaultsFit)
    (defaults : schema.DefaultsRegular) (storable : ledger.Storable schema format) :
    ledger.StoresValid schema := by
  obtain ⟨governed, begun, uniform⟩ := guarded
  intro document stored tree read
  obtain ⟨other, again, found⟩ := governed.reads distinct fit defaults storable document stored
  cases read.symm.trans again
  obtain ⟨first, head, now⟩ := Option.bind_eq_some_iff.mp found
  obtain ⟨start, started, rfl⟩ := Option.map_eq_some_iff.mp now
  apply uniform.fold_valid distinct
  obtain ⟨root, position, rfl, regular, holds, valid⟩ := begun.first first head
  have back : (StateDocument.ofNode root format 1 position).node? = some root :=
    StateFormat.decode?_encode regular holds
  rw [StateDocument.tree?, back] at started
  exact Option.some.inj started ▸ valid

end Guarded

/-! ### Reloading -/

/-- The position and the tree of the snapshot that the thread takes over next. -/
def Errand.takes? : Errand → Option (Nat × Node)
  | .following (.takeOver position root _) => some (position, root)
  | _ => none

theorem Errand.takes?_eq_some {errand : Errand} {position : Nat} {root : Node}
    (takes : errand.takes? = some (position, root)) :
    ∃ next, errand = .following (.takeOver position root next) := by
  unfold takes? at takes
  split at takes
  · cases takes
    exact ⟨_, rfl⟩
  · cases takes

namespace Peer

open ReplicaSettings (Loaded)

variable {κ : Type} {schema : Schema} {ledger : Ledger} {peer : Peer κ}

/-- What comes of it when a peer, on its way to be `now`, takes the tree of a snapshot over. -/
structure TakesOver (schema : Schema) (ledger : Ledger) (peer now : Peer κ) (position : Nat)
    (root : Node) : Prop where
  /-- Records from the position of the peer on are gone. -/
  lacks : ledger.Lacks peer.replica.position
  /-- The snapshot has been stored. -/
  loaded : Loaded schema ledger position root
  moves : now.replica.position = position
  takes : now.prospect schema = if schema.Valid root then root else peer.prospect schema
  /-- The site comes to the end of its queue. -/
  ends : peer.isOpen = true → ∃ steps, (Workplace.step^[steps] now.workplace).isIdle = true
  /-- At the end of its queue, the position and the root of the peer are those of the snapshot, or
  both what they would be without it, exactly if the tree is valid, or if the snapshot has the root
  that the site comes to have without it, or the position of the peer. -/
  together : peer.isOpen = true → ∀ steps, (Workplace.step^[steps] now.workplace).isIdle = true →
    let found := (now.replica.position, (Workplace.step^[steps] now.workplace).site.root)
    (found = (position, root) ∨ found = (peer.replica.position, peer.prospect schema) ↔
      schema.Valid root ∨ peer.prospect schema = root ∨ peer.replica.position = position)

theorem takesOver (follows : peer.Follows schema ledger) {kind : ReplicaSettings → Prop}
    (course : peer.OnCourse schema (Ledger.Consistent schema) kind ledger) {position : Nat}
    {root : Node} (taking : peer.errand.takes? = some (position, root)) (moment : Nat) :
    peer.TakesOver schema ledger (peer.act schema moment) position root := by
  obtain ⟨next, taking⟩ := Errand.takes?_eq_some taking
  have acted :
      peer.act schema moment = peer.pursue schema moment (.takeOver position root next) := by
    rw [act, taking]
  have loads := follows.loads
  rw [taking] at loads
  obtain ⟨⟨lacks, loaded⟩, -⟩ := loads
  rw [acted]
  have takes : (peer.pursue schema moment (.takeOver position root next)).prospect schema = _ :=
    prospect_takeOver course moment
  refine ⟨lacks, loaded, rfl, takes, fun opened => ?_, fun opened steps idle => ?_⟩
  · apply Workplace.exists_isIdle (Workplace.attended_offer follows.attended _)
    exact (peer.workplace.site_offer _).2.2.2.trans (course.started opened)
  · have still : (peer.pursue schema moment (.takeOver position root next)).isOpen = true := by
      simp only [isOpen, taking] at opened ⊢
      exact opened
    rw [prospect_of_isOpen still] at takes
    rw [Workplace.root_of_isIdle _ steps idle, takes]
    change (position, _) = _ ∨ (position, _) = _ ↔ _
    by_cases valid : schema.Valid root
    · simp [valid]
    · simp only [valid, if_false, Prod.mk.injEq, true_and, and_true, false_or, eq_comm]

/-- Where all snapshots have valid trees, an open peer with an empty queue has the root that the log
yields at its position. -/
theorem Follows.yields (follows : peer.Follows schema ledger) (valid : ledger.StoresValid schema)
    (opened : peer.isOpen = true) (idle : peer.workplace.isIdle = true) :
    ledger.Yields schema (peer.replica.position + peer.errand.inHand) peer.workplace.site.root := by
  have yields := follows.aligned valid (isOpen_iff.mp opened).1
  rw [prospect_of_isOpen opened, Workplace.destined, Workplace.owed_of_isIdle idle] at yields
  exact yields

end Peer

namespace Fleet

variable {κ : Type} {schema : Schema}

/-- Reloading. In whatever order any number of sites of one schema join, submit, follow a log and
compact it, whoever takes a snapshot over has records before it that are gone, and comes to the
position of the snapshot. Its site takes the tree if it is valid and drops it without a word if not,
so that root and position move together, or stay together, exactly if the tree is valid or one of
them has nowhere to move. While all snapshots have valid trees, no position is ahead of the root,
whether the peer has reloaded or not. They do where peers prefer one format, the trees they bring
are valid and can be stored, and no update gives an entity another identifier than its key; each
site that has done its work then has the root that the log describes at its position. -/
theorem reload_moves_both_iff {builder : SchemaBuilder} (built : builder.build = .ok schema)
    (distinct : schema.DistinctFields) (events : List (FleetEvent κ)) :
    let fleet := run schema events
    let ledger := fleet.pool.ledger
    (∀ peer ∈ fleet.peers, ∀ position root, peer.errand.takes? = some (position, root) →
        ∀ moment, peer.TakesOver schema ledger (peer.act schema moment) position root) ∧
      (ledger.StoresValid schema →
        ∀ peer ∈ fleet.peers, peer.isOpen = true → peer.workplace.isIdle = true →
          ledger.Yields schema (peer.replica.position + peer.errand.inHand)
            peer.workplace.site.root) ∧
      ∀ format, schema.DefaultsRegular →
        (∀ event ∈ events, event.Regular format ∧ event.KeepsValid schema) →
          ledger.Storable schema format →
            ∀ peer ∈ fleet.peers, peer.isOpen = true → peer.workplace.isIdle = true →
              ledger.Describes schema (peer.replica.position + peer.errand.inHand)
                peer.workplace.site.root := by
  have fit := Schema.defaultsFit_of_build built
  obtain ⟨course, follows⟩ := follows_run distinct fit events
  refine ⟨fun peer member position root taking moment => ?_,
    fun valid peer member => (follows peer member).yields valid,
    fun format defaults brought storable peer member opened idle => ?_⟩
  · exact Peer.takesOver (follows peer member) (course.peers peer member) taking moment
  · have guarded : (run schema events).pool.ledger.Guarded schema format :=
      (onCourse_of_brings Chore.upholds_consistent.tended.tended
        (fun _ guarded => guarded.1.1.tidy)
        (Ledger.tended_empty (Ledger.tended_empty Ledger.consistent_empty)) fun event member =>
          (brings_governed (brought event member).1).tended
            ((brought event member).2.adds (brought event member).1)).pool.holds
    have valid := guarded.storesValid distinct fit defaults storable
    exact ((follows peer member).yields valid opened idle).describes guarded.1 distinct fit
      defaults storable

end Fleet

/-! ### In the sample -/

namespace Sample

/-- Two sites join. The title is replaced, then something else is changed; the first site follows
the log and compacts it. The second one finds that the records are gone, and loads the snapshot. -/
def overtaking (change : Update) : List (FleetEvent Unit) :=
  [.enroll "first" a swift tree, .peer 0 .call, .peer 0 .call, .peer 0 .call, .peer 0 .call,
    .peer 0 (.act 0), .peer 0 .launch,
    .enroll "second" b swift tree, .peer 1 .call, .peer 1 .call, .peer 1 (.act 1), .peer 1 .launch,
    .submit 0 (Uuid.ofNat 0) entitle, .proceed 0, .submit 0 (Uuid.ofNat 1) (.update change),
    .proceed 1,
    .peer 0 (.act 2), .peer 0 .call, .peer 0 (.act 2), .peer 0 (.act 2), .peer 0 (.act 2),
    .peer 0 (.act 2), .peer 0 (.act 2), .peer 0 (.act 2), .peer 0 .call, .peer 0 .call,
    .peer 0 .call, .peer 0 .call, .peer 0 (.act 2), .peer 0 (.act 2),
    .peer 1 (.act 3), .peer 1 .call, .peer 1 .call, .peer 1 (.act 3)]

/-- The second site takes the snapshot over, and works off its queue. -/
def reloading : List (FleetEvent Unit) :=
  [.peer 1 (.act 4), .peer 1 .work, .peer 1 .work, .peer 1 .work]

/-- The position of the second site, its root, and whether its queue is empty. -/
def laggard (fleet : Fleet Unit) : Option (Nat × Node × Bool) :=
  fleet.peers[1]?.map fun peer =>
    (peer.replica.position, peer.workplace.site.root, peer.workplace.isIdle)

/-- The position of the stored snapshot, and its tree. -/
def storedTree (fleet : Fleet Unit) : Option (Nat × Option Node) :=
  fleet.pool.ledger.log.state.map fun document => (document.position, document.tree? schema)

/-- The sample with the new title, and with a target of another identifier than its key. -/
def garbled : Node :=
  .struct ⟨[("chosen", .listing ⟨targets, [a]⟩),
    ("notes", .sideTable ⟨targets, [(a, .str "first"), (b, .str "gone")]⟩),
    ("targets", .catalog ⟨[(a, .struct ⟨[("id", .id b)]⟩)]⟩),
    ("title", .str "new")]⟩

/-- When a target gets another identifier than its key, the second site, whose records are gone,
comes to the position of the snapshot, but not to its tree, and misses the title as well. -/
theorem overtaken_apart :
    let before := Fleet.run schema (overtaking rekey)
    let after := Fleet.run schema (overtaking rekey ++ reloading)
    before.pool.ledger.log.first = 2 ∧ laggard before = some (0, tree, true) ∧
      laggard after = some (2, tree, true) ∧ storedTree after = some (2, some garbled) ∧
      garbled ≠ tree := by
  refine ⟨by decide +kernel, by decide +kernel, by decide +kernel, by decide +kernel, ?_⟩
  decide +kernel

theorem brought_overtaking : ∀ event ∈ overtaking retitle ++ reloading,
    event.Regular .json ∧ event.KeepsValid schema := by
  have holds : StateFormat.json.Holds tree := by decide +kernel
  have complete : schema.Valid (schema.polyfill tree) := by decide +kernel
  intro event member
  cases event with
  | enroll name identity settings standard =>
      simp only [overtaking, reloading, List.cons_append, List.nil_append, List.mem_cons,
        FleetEvent.enroll.injEq, reduceCtorEq, false_or, List.not_mem_nil, or_false] at member
      rcases member with ⟨-, -, rfl, rfl⟩ | ⟨-, -, rfl, rfl⟩ <;>
        exact ⟨⟨rfl, regular_tree, holds⟩, complete⟩
  | submit index correlation body =>
      simp only [overtaking, reloading, List.cons_append, List.nil_append, List.mem_cons,
        FleetEvent.submit.injEq, reduceCtorEq, false_or, List.not_mem_nil, or_false] at member
      rcases member with ⟨-, -, rfl⟩ | ⟨-, -, rfl⟩
      · refine ⟨?_, title_keeps _⟩
        rintro value ⟨⟩
        exact .str _
      · refine ⟨?_, title_keeps _⟩
        rintro value ⟨⟩
        exact .str _
  | _ => exact ⟨trivial, trivial⟩

/-- When the title is replaced again, the second site comes to the position of the snapshot and to
its tree, and has the root then that the log describes. -/
theorem retitled_together :
    let before := Fleet.run schema (overtaking retitle)
    let after := Fleet.run schema (overtaking retitle ++ reloading)
    (before.peers.map fun peer => peer.errand.takes?.map fun taken =>
        (taken.1, decide (schema.Valid taken.2))) = [none, some (2, true)] ∧
      (∀ peer ∈ before.peers, ∀ root, peer.errand.takes? = some (2, root) →
        (peer.act schema 4).replica.position = 2 ∧ (peer.act schema 4).prospect schema = root) ∧
      (after.peers.map fun peer => (peer.replica.position, peer.isOpen, peer.workplace.isIdle)) =
        [(2, true, false), (2, true, true)] ∧
      ∀ peer ∈ after.peers, peer.isOpen = true → peer.workplace.isIdle = true →
        after.pool.ledger.Describes schema (peer.replica.position + peer.errand.inHand)
          peer.workplace.site.root := by
  have taken : ((Fleet.run schema (overtaking retitle)).peers.map fun peer =>
      peer.errand.takes?.map fun taken => (taken.1, decide (schema.Valid taken.2))) =
        [none, some (2, true)] := by
    decide +kernel
  refine ⟨taken, fun peer member root takes => ?_, by decide +kernel, ?_⟩
  · have reload := (Fleet.reload_moves_both_iff built distinctFields (overtaking retitle)).1 peer
      member 2 root takes 4
    have here := List.mem_map_of_mem (f := fun peer : Peer Unit =>
      peer.errand.takes?.map fun taken => (taken.1, decide (schema.Valid taken.2))) member
    rw [taken, takes] at here
    have valid : schema.Valid root := by simpa using here
    exact ⟨reload.moves, reload.takes.trans (if_pos valid)⟩
  · exact (Fleet.reload_moves_both_iff built distinctFields (overtaking retitle ++ reloading)).2.2
      .json defaultsRegular brought_overtaking
      (Ledger.storable_of_all 2 (by decide +kernel) (by decide +kernel))

end Sample

end StateTree
