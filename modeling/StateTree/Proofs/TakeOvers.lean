/-
Module: StateTree.Proofs.TakeOvers
Purpose: Snapshots that replicas take over in place of records that are gone. The replica comes to
  the position of the snapshot in any case, the site takes its tree only if that is valid. Where the
  log has stored valid trees only, the root is always what the log yields at the position.
-/
import StateTree.Proofs.Flushing

namespace StateTree

/-! ### A tree as a whole -/

theorem Accessor.set_root (schema : Schema) (old root : Node) :
    Accessor.set ⟨.root, [], schema.rootType⟩ schema old root =
      (schema.validate root).map fun _ => root := by
  unfold Accessor.set Accessor.checkValue
  rw [show schema.validateAt schema.rootType root .root = schema.validate root from rfl]
  cases schema.validate root <;> rfl

/-- To replace the root replaces the whole tree, if the new one is valid. -/
theorem Update.foldInto_root (schema : Schema) (old root : Node) (context : DiagnosticContext) :
    Update.foldInto schema old ⟨.replacement .root root, context⟩ =
      if schema.Valid root then root else old := by
  have applied : (Operation.replacement .root root).apply schema old =
      Operation.replace schema ⟨.root, [], schema.rootType⟩ old root := rfl
  rw [Update.foldInto, applied, Operation.replace, Accessor.set_root]
  cases checked : schema.validate root with
  | ok passed => exact (if_pos checked).symm
  | error cause =>
      have invalid : ¬ schema.Valid root := fun valid => by cases checked.symm.trans valid
      rw [if_neg invalid]
      cases cause <;> rfl

/-! ### What replicas take over -/

section Loading

variable {schema : Schema} {ledger before after : Ledger} {position : Nat}

open LogProgram (Ensures Returns Stable)
open ReplicaSettings (Loaded)

/-- The record of a position is gone. -/
def Ledger.Lacks (ledger : Ledger) (position : Nat) : Prop := position < ledger.log.first

theorem Ledger.stable_lacks (position : Nat) : Stable (Ledger.Lacks · position) :=
  fun _ _ grows lacks => Nat.lt_of_lt_of_le lacks grows.first

/-- A snapshot that takes the place of records from a position on has been stored, and the records
are gone. -/
def Arrears.Replaces (schema : Schema) (position : Nat) : Arrears → Ledger → Prop
  | .records _, _ => True
  | .snapshot target root, ledger => ledger.Lacks position ∧ Loaded schema ledger target root

namespace ReplicaSettings

variable (settings : ReplicaSettings)

theorem loads_reload (lacks : ledger.Lacks position) :
    (settings.reload schema).Ensures (Ledger.Consistent schema)
      (Returns fun arrears later => arrears.Replaces schema position later) ledger := by
  apply Ensures.bind
  refine ((ensures_requireState settings _).keep (Ledger.stable_lacks position) lacks).weaken ?_
  rintro result later ⟨known, lacks⟩
  cases result with
  | error error => exact LogProgram.returns_error _ error later
  | ok document =>
      obtain ⟨stored, inside⟩ := known document rfl
      apply Ensures.bind
      rw [load_eq]
      cases read : document.tree? schema with
      | none =>
          intro tree same
          cases same
      | some tree =>
          intro arrears same
          cases same
          exact ⟨lacks, document, stored, rfl, read, inside⟩

/-- Who catches up gets a snapshot only in place of records that are gone. -/
theorem loads_catchUp (position : Nat) :
    (settings.catchUp schema position).Ensures (Ledger.Consistent schema)
      (Returns fun arrears later => arrears.Replaces schema position later) ledger := by
  have quiet : Ledger.Quiet (LogCall.readFrom position) := trivial
  refine Ensures.recover (Ensures.bind (LogProgram.ensures_attempt ?_))
  intro later grows consistent
  refine ⟨consistent.answer_quiet quiet, ?_, ?_⟩
  · rcases Nat.lt_or_ge position later.log.first with dropped | kept
    · rw [Ledger.answer_readFrom_of_lt dropped]
      exact loads_reload settings dropped
    · rw [Ledger.answer_readFrom_of_le kept]
      intro arrears same
      cases same
      trivial
  · intro error transient
    rcases LogError.transient_cases transient with rfl | ⟨reason, rfl⟩
    · exact LogProgram.returns_error _ _ _
    · exact LogProgram.returns_error _ _ _

end ReplicaSettings

namespace Chore

/-- What a chore of a replica at a position takes over is a snapshot that was stored, in place of
records that are gone. How long the log is becomes known when the replica looks; compacting relies
on it. -/
def Loads (schema : Schema) : Chore → Ledger → Nat → Prop
  | .rest _, _, _ => True
  | .consult program next, ledger, position =>
      program.Ensures (Ledger.Consistent schema)
        (fun result later => (next result).Loads schema later position) ledger
  | .look next, ledger, position => ∀ later : Ledger, ledger.Grows later →
      position ≤ later.appended.length → ∀ replica : Replica, replica.position = position →
        (next replica).Loads schema later position
  | .pass _ next, ledger, position => next.Loads schema ledger position
  | .advance number next, ledger, _ => next.Loads schema ledger (number + 1)
  | .takeOver target root next, ledger, position =>
      (ledger.Lacks position ∧ Loaded schema ledger target root) ∧ next.Loads schema ledger target
  | .compacted next, ledger, position => next.Loads schema ledger position

variable {chore : Chore}

theorem Loads.later (loads : chore.Loads schema before position) (grows : before.Grows after) :
    chore.Loads schema after position := by
  induction chore generalizing before after position with
  | rest isRead => trivial
  | consult program next ih =>
      exact Ensures.later (fun result early late further loads => ih result loads further) loads
        grows
  | look next ih => exact fun later further => loads later (grows.trans further)
  | pass record next ih => exact ih loads grows
  | advance number next ih => exact ih loads grows
  | takeOver target root next ih =>
      obtain ⟨⟨lacks, loaded⟩, rest⟩ := loads
      exact ⟨⟨Ledger.stable_lacks _ _ _ grows lacks,
        ReplicaSettings.stable_loaded _ _ _ _ grows loaded⟩, ih rest grows⟩
  | compacted next ih => exact ih loads grows

theorem loads_compacting (schema : Schema) (ledger : Ledger) (position : Nat) :
    (compacting schema).Loads schema ledger position := by
  rintro later - inside replica rfl
  dsimp only
  split
  · refine (replica.settings.ensures_compact inside).weaken fun result now _ => ?_
    dsimp only
    split <;> trivial
  · trivial

theorem loads_applying (records : List LogRecord) (position : Nat) :
    (applying records (compacting schema)).Loads schema ledger position := by
  induction records generalizing position with
  | nil => exact loads_compacting schema ledger position
  | cons record rest ih => exact ih (record.number + 1)

theorem loads_catchUp (schema : Schema) (ledger : Ledger) (position : Nat) :
    (catchUp schema).Loads schema ledger position := by
  rintro later - - replica rfl
  refine (replica.settings.loads_catchUp replica.position).weaken fun result now known => ?_
  dsimp only
  split
  · trivial
  · exact ⟨known _ rfl, trivial⟩
  · exact loads_applying _ _

end Chore

namespace Errand

/-- What the thread of a replica at a position takes over is a snapshot that was stored, in place of
records that are gone. -/
def Loads (schema : Schema) (ledger : Ledger) (position : Nat) : Errand → Prop
  | .joining _ => True
  | .following chore => chore.Loads schema ledger position

variable {errand : Errand}

theorem Loads.later (loads : errand.Loads schema before position) (grows : before.Grows after) :
    errand.Loads schema after position := by
  cases errand with
  | joining program => trivial
  | following chore => exact Chore.Loads.later loads grows

theorem Loads.answered (loads : errand.Loads schema ledger position)
    (consistent : ledger.Consistent schema) :
    (errand.answered ledger).1.Loads schema (errand.answered ledger).2 position := by
  cases errand with
  | joining program => trivial
  | following chore =>
      cases chore with
      | consult program next => exact (Ensures.advance loads consistent).2.2
      | _ => exact loads

theorem Loads.refused (loads : errand.Loads schema ledger position)
    (consistent : ledger.Consistent schema) {error : LogError}
    (transient : error.isTransient = true) :
    (errand.refused error).Loads schema ledger position := by
  cases errand with
  | joining program => trivial
  | following chore =>
      cases chore with
      | consult program next => exact Ensures.refuse loads consistent transient
      | _ => exact loads

end Errand

end Loading

/-! ### What a root comes to be -/

/-- All snapshots that a log was ever given have valid trees. -/
def Ledger.StoresValid (schema : Schema) (ledger : Ledger) : Prop :=
  ∀ document ∈ ledger.documents, ∀ tree, document.tree? schema = some tree → schema.Valid tree

theorem Ledger.StoresValid.earlier {schema : Schema} {before after : Ledger}
    (valid : after.StoresValid schema) (grows : before.Grows after) : before.StoresValid schema :=
  fun document stored => valid document (grows.documents.subset stored)

namespace Peer

open ReplicaSettings (Loaded)

variable {κ : Type} {schema : Schema} {ledger before after : Ledger} {peer now : Peer κ}

/-- What the root of a peer comes to be once all that waits at the site is applied. -/
def prospect (schema : Schema) (peer : Peer κ) : Node :=
  peer.workplace.destined (peer.origin schema)

theorem isOpen_iff :
    peer.isOpen = true ↔ peer.errand.isJoining = false ∧ peer.supplied = none := by
  simp [isOpen]

theorem prospect_of_isOpen (opened : peer.isOpen = true) :
    peer.prospect schema = peer.workplace.destined peer.workplace.site.root := by
  rw [prospect, origin, (isOpen_iff.mp opened).2]
  rfl

/-- What is added to what waits is applied to what the root was to be. -/
theorem prospect_of_gains {items : List (WorkItem κ)}
    (gains : Workplace.Gains items peer.workplace now.workplace)
    (supplied : now.supplied = peer.supplied) :
    now.prospect schema =
      (items.flatMap WorkItem.updates).foldl (Update.foldInto peer.workplace.site.schema)
        (peer.prospect schema) := by
  rw [prospect, prospect, Workplace.destined, Workplace.destined, origin, origin, supplied,
    gains.root, gains.schema, Workplace.owed_eq, Workplace.owed_eq, gains.waiting,
    List.flatMap_append, List.foldl_append]

/-- What the root comes to be is what the log yields at the position up to which the site has got
the records. -/
def Aligned (schema : Schema) (ledger : Ledger) (peer : Peer κ) : Prop :=
  peer.errand.isJoining = false → ledger.Yields schema peer.reached (peer.prospect schema)

/-- What holds of every peer of a consistent log. A snapshot with an invalid tree that some peer has
taken over would leave the root of that peer behind for good. -/
structure Follows (schema : Schema) (ledger : Ledger) (peer : Peer κ) : Prop where
  attended : peer.workplace.Attended
  loads : peer.errand.Loads schema ledger peer.replica.position
  aligned : ledger.StoresValid schema → peer.Aligned schema ledger

theorem follows_new (number : Nat) (name : String) (identity : Identifier)
    (settings : ReplicaSettings) (standard : Node) :
    (Peer.new schema number name identity settings standard : Peer κ).Follows schema ledger where
  attended := fun _ => ⟨rfl, nofun⟩
  loads := trivial
  aligned := fun _ => nofun

theorem Follows.later (follows : peer.Follows schema before) (grows : before.Grows after) :
    peer.Follows schema after where
  attended := follows.attended
  loads := follows.loads.later grows
  aligned := fun valid joined => (follows.aligned (valid.earlier grows) joined).later grows

/-! ### The steps of the thread -/

section Steps

variable {kind : ReplicaSettings → Prop}
  (course : peer.OnCourse schema (Ledger.Consistent schema) kind ledger)

include course

/-- The thread or another one adds items to what waits at the site. -/
theorem Aligned.gain (aligned : peer.Aligned schema ledger) {items : List (WorkItem κ)}
    (gains : Workplace.Gains items peer.workplace now.workplace)
    (joining : now.errand.isJoining = peer.errand.isJoining)
    (supplied : now.supplied = peer.supplied) (onward : peer.reached ≤ now.reached)
    (inside : now.reached ≤ ledger.appended.length)
    (held : items.flatMap WorkItem.updates =
      (ledger.between peer.reached now.reached).flatMap LogRecord.updates) :
    now.Aligned schema ledger := by
  intro joined
  rw [prospect_of_gains gains supplied, course.typed, held, ← Ledger.fold_eq_foldl]
  exact (aligned (joining.symm.trans joined)).onward onward inside

/-- The thread turns to something else. -/
theorem Aligned.turn (aligned : peer.Aligned schema ledger) {replica : Replica} {errand : Errand}
    (joining : errand.isJoining = peer.errand.isJoining)
    (reached : replica.position + errand.inHand = peer.reached) :
    { peer with replica := replica, errand := errand }.Aligned schema ledger := by
  refine aligned.gain course (Workplace.Gains.refl course.manned) joining rfl
    (Nat.le_of_eq reached.symm) ?_ ?_
  · exact Nat.le_trans (Nat.le_of_eq reached) course.reached_le
  · rw [show Peer.reached { peer with replica := replica, errand := errand } = peer.reached
      from reached, Ledger.between_self]
    rfl

/-- The site gets the record of the position. -/
theorem Aligned.receive (aligned : peer.Aligned schema ledger) {record : LogRecord} {next : Chore}
    (passing : peer.errand = .following (.pass record next)) :
    { peer with
      workplace := peer.workplace.receive record
      errand := .following next }.Aligned schema ledger := by
  have heeds := course.heeds
  rw [passing] at heeds
  obtain ⟨-, found, rest⟩ := heeds
  have start : peer.reached = peer.replica.position := by rw [Peer.reached, passing]; rfl
  have stop : Peer.reached { peer with
      workplace := peer.workplace.receive record
      errand := .following next } = peer.replica.position + 1 := congrArg _ rest.inHand_eq
  refine aligned.gain course (Workplace.Gains.receive course.manned record) (by rw [passing]; rfl)
    rfl ?_ ?_ ?_
  · rw [start, stop]
    exact Nat.le_succ _
  · rw [stop]
    exact (List.getElem?_eq_some_iff.mp found).1
  · rw [start, stop, Ledger.between_succ found]
    simp [List.flatMap_map, WorkItem.updates]

/-- A tree that is taken over is what the root comes to be, if it is valid; an invalid one is
dropped. -/
theorem prospect_takeOver (moment : Nat) {position : Nat} {root : Node} {next : Chore} :
    (peer.pursue schema moment (.takeOver position root next)).prospect schema =
      if schema.Valid root then root else peer.prospect schema := by
  have gains := Workplace.Gains.offer course.manned (.apply ⟨.replacement .root root, .empty⟩)
  have added : (peer.pursue schema moment (.takeOver position root next)).prospect schema = _ :=
    prospect_of_gains gains rfl
  rw [added, course.typed]
  exact Update.foldInto_root schema _ root .empty

/-- What was taken over is what the log yields at the position of the snapshot. -/
theorem yields_takeOver (distinct : schema.DistinctFields) (fit : schema.DefaultsFit) (moment : Nat)
    {position : Nat} {root : Node} {next : Chore}
    (taking : peer.errand = .following (.takeOver position root next))
    (loaded : Loaded schema ledger position root) (valid : ledger.StoresValid schema) :
    ledger.Yields schema (peer.pursue schema moment (.takeOver position root next)).reached
      ((peer.pursue schema moment (.takeOver position root next)).prospect schema) := by
  have heeds := course.heeds
  rw [taking] at heeds
  have reached : (peer.pursue schema moment (.takeOver position root next)).reached = position :=
    congrArg _ heeds.2.2.inHand_eq
  obtain ⟨document, stored, same, read, inside⟩ := loaded
  rw [reached, prospect_takeOver course moment, if_pos (valid document stored root read)]
  refine ⟨document, stored, root, read, Nat.le_of_eq same, inside, ?_⟩
  rw [same, Ledger.fold_self, Schema.polyfill_of_tree? distinct fit read]

theorem Follows.pursue (follows : peer.Follows schema ledger)
    (consistent : ledger.Consistent schema) (distinct : schema.DistinctFields)
    (fit : schema.DefaultsFit) (moment : Nat) {chore : Chore}
    (following : peer.errand = .following chore) :
    (peer.pursue schema moment chore).Follows schema ledger := by
  obtain ⟨workplace, replica, errand, supplied, hasReloaded⟩ := peer
  cases following
  have heeds := course.heeds
  obtain ⟨attended, loads, aligned⟩ := follows
  cases chore with
  | rest isRead =>
      simp only [Peer.pursue]
      split
      · exact ⟨attended, Chore.loads_catchUp _ _ _,
          fun valid => (aligned valid).turn course rfl rfl⟩
      · exact ⟨attended, loads, aligned⟩
  | consult program next =>
      simp only [Peer.pursue]
      split
      · rename_i result ended
        refine ⟨attended, loads.result ended, fun valid => (aligned valid).turn course rfl ?_⟩
        exact congrArg _ (heeds.2.result ended).inHand_eq
      · exact ⟨attended, loads, aligned⟩
  | look next =>
      refine ⟨attended, loads ledger (.refl ledger) course.inside replica rfl, fun valid => ?_⟩
      exact (aligned valid).turn course rfl
        (congrArg _ (heeds.2 replica rfl course.suits).inHand_eq)
  | pass record next =>
      exact ⟨Workplace.attended_receive attended record, loads, fun valid =>
        (aligned valid).receive course rfl⟩
  | advance number next =>
      obtain ⟨-, numbered, rest⟩ := heeds
      obtain ⟨record, found, same⟩ := Option.map_eq_some_iff.mp numbered
      refine ⟨attended, loads, fun valid => (aligned valid).turn course rfl ?_⟩
      have numbered : number = replica.position := same.symm.trans (consistent.tidy.number_eq found)
      rw [numbered]
      exact congrArg _ rest.inHand_eq
  | takeOver position root next =>
      obtain ⟨⟨-, loaded⟩, later⟩ := loads
      exact ⟨Workplace.attended_offer attended _, later, fun valid _ =>
        yields_takeOver course distinct fit moment rfl loaded valid⟩
  | compacted next =>
      exact ⟨attended, loads, fun valid =>
        (aligned valid).turn course rfl (congrArg _ heeds.2.inHand_eq)⟩

theorem Follows.act (follows : peer.Follows schema ledger) (consistent : ledger.Consistent schema)
    (distinct : schema.DistinctFields) (fit : schema.DefaultsFit) (moment : Nat) :
    (peer.act schema moment).Follows schema ledger := by
  unfold Peer.act
  split
  · rename_i program joining
    have heeds := course.heeds
    rw [joining] at heeds
    split
    · rename_i position root ended
      have loaded : Loaded schema ledger position root := heeds.result ended _ rfl
      obtain ⟨document, stored, same, read, inside⟩ := loaded
      obtain ⟨-, -, idle⟩ := course.fresh (by rw [joining]; rfl)
      refine ⟨follows.attended, Chore.loads_catchUp _ _ _, fun _ _ => ?_⟩
      refine ⟨document, stored, root, read, Nat.le_of_eq same, inside, ?_⟩
      change _ = ledger.fold schema document.position position (schema.polyfill root)
      rw [same, Ledger.fold_self, prospect, Workplace.destined, Workplace.owed_eq, idle]
      rfl
    · exact follows
  · rename_i chore following
    exact follows.pursue course consistent distinct fit moment following

/-! ### The steps of the site -/

/-- The site starts from the tree that was supplied. -/
theorem Follows.launch (follows : peer.Follows schema ledger) :
    (peer.launch schema).Follows schema ledger := by
  unfold Peer.launch
  cases supplied : peer.supplied with
  | none => exact follows
  | some root =>
      dsimp only
      split
      · obtain ⟨-, owed⟩ := Workplace.start_spec course.manned (schema.polyfill root)
        refine ⟨Workplace.attended_start follows.attended _, follows.loads, fun valid joined => ?_⟩
        have yields := follows.aligned valid joined
        rw [prospect, origin, supplied, Workplace.destined, ← owed] at yields
        exact yields
      · exact follows

/-- The drainer works on what waits. -/
theorem Follows.work (follows : peer.Follows schema ledger) :
    { peer with workplace := peer.workplace.step }.Follows schema ledger := by
  refine ⟨Workplace.attended_step follows.attended, follows.loads, fun valid joined => ?_⟩
  have yields := follows.aligned valid joined
  cases opened : peer.isOpen with
  | false =>
      rw [Workplace.step_of_asleep (course.asleep opened)]
      exact yields
  | true =>
      have still : { peer with workplace := peer.workplace.step }.isOpen = true := opened
      rw [prospect_of_isOpen opened] at yields
      rw [prospect_of_isOpen still, peer.workplace.destined_step]
      exact yields

theorem Follows.register (follows : peer.Follows schema ledger) (name : String) (scope : Accessor)
    (priority : Int) (payload : κ) :
    { peer with
      workplace := peer.workplace.change
        (peer.workplace.site.register name scope priority payload) }.Follows schema ledger := by
  refine ⟨Workplace.attended_register follows.attended name scope priority payload, follows.loads,
    fun valid => ?_⟩
  refine (follows.aligned valid).gain course (Workplace.Gains.enqueue course.manned _ _) rfl rfl
    (Nat.le_refl _) course.reached_le ?_
  exact (congrArg (List.flatMap _) (Ledger.between_self ledger _)).symm

/-- A step of a peer keeps what holds of it. -/
theorem Follows.step (follows : peer.Follows schema ledger) (consistent : ledger.Consistent schema)
    (distinct : schema.DistinctFields) (fit : schema.DefaultsFit) (event : PeerEvent κ) :
    (peer.after schema ledger event).1.Follows schema (peer.after schema ledger event).2 := by
  cases event with
  | call =>
      obtain ⟨-, grows, -⟩ := course.heeds.answered consistent
      obtain ⟨joining, inHand⟩ := peer.errand.same_answered ledger
      refine ⟨follows.attended, follows.loads.answered consistent, fun valid joined => ?_⟩
      have turned := (follows.aligned (valid.earlier grows)).turn course joining
        (congrArg (peer.replica.position + ·) inHand)
      exact (turned joined).later grows
  | refuse error =>
      simp only [Peer.after]
      split
      · rename_i transient
        obtain ⟨joining, inHand⟩ := peer.errand.same_refused error
        exact ⟨follows.attended, follows.loads.refused consistent transient, fun valid =>
          (follows.aligned valid).turn course joining
            (congrArg (peer.replica.position + ·) inHand)⟩
      · exact follows
  | act moment => exact follows.act course consistent distinct fit moment
  | launch => exact follows.launch course
  | work => exact follows.work course
  | register name scope priority payload =>
      exact follows.register course name scope priority payload
  | close =>
      exact ⟨follows.attended, follows.loads, fun valid =>
        (follows.aligned valid).turn course rfl rfl⟩

end Steps

end Peer

/-! ### Whole runs -/

namespace Fleet

variable {κ : Type} {schema : Schema} {fleet : Fleet κ}

/-- A step of anyone keeps what holds of all peers. -/
theorem follows_after (course : fleet.OnCourse schema (Ledger.Consistent schema) fun _ => True)
    (follows : ∀ peer ∈ fleet.peers, peer.Follows schema fleet.pool.ledger)
    (distinct : schema.DistinctFields) (fit : schema.DefaultsFit) (event : FleetEvent κ)
    (grows : fleet.pool.ledger.Grows (fleet.after schema event).pool.ledger) :
    ∀ peer ∈ (fleet.after schema event).peers,
      peer.Follows schema (fleet.after schema event).pool.ledger := by
  intro peer member
  cases event with
  | enroll name identity settings standard =>
      rcases List.mem_append.mp member with there | new
      · exact follows peer there
      · rw [List.mem_singleton.mp new]
        exact Peer.follows_new _ name identity settings standard
  | submit index correlation body =>
      have same : (fleet.after schema (.submit index correlation body)).peers = fleet.peers := by
        simp only [Fleet.after]
        split
        · split <;> rfl
        · rfl
      exact (follows peer (same ▸ member)).later grows
  | proceed task => exact (follows peer member).later grows
  | refuse task error => exact (follows peer member).later grows
  | peer index event =>
      simp only [Fleet.after] at member grows ⊢
      cases found : fleet.peers[index]? with
      | none =>
          simp only [found] at member ⊢
          exact follows peer member
      | some acting =>
          simp only [found] at member grows ⊢
          have there := List.mem_of_getElem? found
          rcases List.mem_or_eq_of_mem_set member with other | same
          · exact (follows peer other).later grows
          · rw [same]
            exact (follows acting there).step (course.peers acting there) course.pool.holds distinct
              fit event

/-- Every run keeps the log consistent, and what holds of all peers. -/
theorem follows_run (distinct : schema.DistinctFields) (fit : schema.DefaultsFit)
    (events : List (FleetEvent κ)) :
    (run schema events).OnCourse schema (Ledger.Consistent schema) (fun _ => True) ∧
      ∀ peer ∈ (run schema events).peers,
        peer.Follows schema (run schema events).pool.ledger := by
  induction events using List.reverseRecOn with
  | nil => exact ⟨onCourse_empty Ledger.consistent_empty, fun _ none => nomatch none⟩
  | append_singleton events event ih =>
      obtain ⟨course, follows⟩ := ih
      rw [run_concat]
      obtain ⟨now, onward⟩ := course.after Chore.upholds_consistent
        (fun _ consistent => consistent.tidy) (brings_consistent event)
      exact ⟨now, follows_after course follows distinct fit event onward.grows⟩

end Fleet

end StateTree
