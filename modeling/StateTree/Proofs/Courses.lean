/-
Module: StateTree.Proofs.Courses
Purpose: The course of a peer along its log, whichever invariant of the log all who call it keep.
  The peer hands on the records from the snapshot on that it has joined with, each of them once; its
  position never moves back, and its site does what is added in turn, until it takes a snapshot over
  as a whole.
-/
import StateTree.Proofs.Backlog
import StateTree.Proofs.Chores

namespace StateTree

namespace Peer

open LogProgram (Returns)
open ReplicaSettings (Loaded)

variable {κ : Type} {schema : Schema} {invariant : Ledger → Prop} {kind : ReplicaSettings → Prop}
  {ledger before after : Ledger} {peer now last : Peer κ}

/-- The root that the site is to go on from. -/
def origin (schema : Schema) (peer : Peer κ) : Node :=
  (peer.supplied.map schema.polyfill).getD peer.workplace.site.root

/-- The position up to which the site has got the records. -/
def reached (peer : Peer κ) : Nat := peer.replica.position + peer.errand.inHand

/-- The log has fed the site of a peer. -/
def Fed (schema : Schema) (ledger : Ledger) (count mark : Nat) (peer : Peer κ) : Prop :=
  ledger.Feeds schema (peer.origin schema) peer.workplace.waiting peer.reached count mark

/-- What holds of a peer at every moment. -/
structure OnCourse (schema : Schema) (invariant : Ledger → Prop) (kind : ReplicaSettings → Prop)
    (ledger : Ledger) (peer : Peer κ) : Prop where
  manned : peer.workplace.Manned
  counted : peer.workplace.Counted
  typed : peer.workplace.site.schema = schema
  suits : kind peer.replica.settings
  inside : peer.replica.position ≤ ledger.appended.length
  heeds : peer.errand.Heeds schema invariant kind ledger peer.replica.position
  fresh : peer.errand.isJoining = true → peer.supplied = none ∧ peer.replica.position = 0 ∧
    peer.workplace.waiting.flatMap WorkItem.updates = []
  asleep : peer.isOpen = false → peer.workplace.Asleep
  started : peer.isOpen = true → peer.workplace.site.queue.isStarted = true
  fed : peer.errand.isJoining = false → peer.hasReloaded = false → peer.Fed schema ledger 0 0

/-- What those who wait at a peer can rely on from one moment to another: while the peer takes no
snapshot over, its position does not move back, and who waits for the first `target` items has the
fewer of them left the more are processed. -/
structure Onward (schema : Schema) (before after : Ledger) (peer now : Peer κ) : Prop where
  joined : peer.errand.isJoining = false → now.errand.isJoining = false
  opened : peer.isOpen = true → now.isOpen = true
  kept : now.hasReloaded = false → peer.hasReloaded = false
  position : now.hasReloaded = false → peer.replica.position ≤ now.replica.position
  enqueued : peer.workplace.enqueued ≤ now.workplace.enqueued
  fed : peer.errand.isJoining = false → now.hasReloaded = false →
    ∀ target ≤ peer.workplace.enqueued, ∀ mark,
      peer.Fed schema before (target - peer.workplace.processed) mark →
        now.Fed schema after (target - now.workplace.processed) mark

theorem Onward.trans {middle : Ledger} (early : Onward schema before middle peer now)
    (late : Onward schema middle after now last) : Onward schema before after peer last where
  joined := fun joined => late.joined (early.joined joined)
  opened := fun opened => late.opened (early.opened opened)
  kept := fun kept => early.kept (late.kept kept)
  position := fun kept => Nat.le_trans (early.position (late.kept kept)) (late.position kept)
  enqueued := Nat.le_trans early.enqueued late.enqueued
  fed := fun joined kept target added mark fed =>
    late.fed (early.joined joined) kept target (Nat.le_trans added early.enqueued) mark
      (early.fed joined (late.kept kept) target added mark fed)

theorem inHand_of_isJoining {errand : Errand} (joining : errand.isJoining = true) :
    errand.inHand = 0 := by
  cases errand with
  | joining program => rfl
  | following chore => cases joining

theorem OnCourse.reached_le (course : peer.OnCourse schema invariant kind ledger) :
    peer.reached ≤ ledger.appended.length := by
  obtain ⟨workplace, replica, errand, supplied, hasReloaded⟩ := peer
  have inside := course.inside
  have heeds := course.heeds
  cases errand with
  | joining program => exact inside
  | following chore =>
      cases chore with
      | advance number next =>
          obtain ⟨record, found, -⟩ := Option.map_eq_some_iff.mp heeds.2.1
          exact (List.getElem?_eq_some_iff.mp found).1
      | _ => exact inside

/-- A new peer is on its course along any log. -/
theorem onCourse_new (number : Nat) (name : String) (identity : Identifier)
    {settings : ReplicaSettings} {standard : Node} (suits : kind settings)
    (joins : (settings.join schema standard).Ensures invariant
      (Returns fun joined later => Loaded schema later joined.1 joined.2) ledger) :
    (Peer.new schema number name identity settings standard : Peer κ).OnCourse schema invariant
      kind ledger where
  manned := fun _ => rfl
  counted := rfl
  typed := rfl
  suits := suits
  inside := Nat.zero_le _
  heeds := joins
  fresh := fun _ => ⟨rfl, rfl, rfl⟩
  asleep := fun _ => ⟨rfl, rfl⟩
  started := nofun
  fed := nofun

/-- The log grows, and the peer rests. -/
theorem OnCourse.later (course : peer.OnCourse schema invariant kind before)
    (grows : before.Grows after) :
    peer.OnCourse schema invariant kind after ∧ Onward schema before after peer peer := by
  have further {count mark : Nat} (fed : peer.Fed schema before count mark) :
      peer.Fed schema after count mark := fed.later grows course.reached_le
  constructor
  · exact { course with
      inside := Nat.le_trans course.inside grows.appended.length_le
      heeds := course.heeds.later grows
      fed := fun joined kept => further (course.fed joined kept) }
  · exact ⟨id, id, id, fun _ => Nat.le_refl _, Nat.le_refl _, fun _ _ _ _ _ => further⟩

/-- What the root of a peer comes to be in the end is what the log yields at the position up to
which the site has got the records. -/
theorem OnCourse.yields (course : peer.OnCourse schema invariant kind ledger)
    (joined : peer.errand.isJoining = false) (kept : peer.hasReloaded = false) :
    ledger.Yields schema peer.reached (peer.workplace.destined (peer.origin schema)) := by
  obtain ⟨position, late, early, yields, -⟩ := (course.fed joined kept).all course.reached_le
  obtain rfl := Nat.le_antisymm late early
  rw [List.take_length, ← Workplace.owed_eq, ← course.typed] at yields
  rw [← course.typed]
  exact yields

/-! ### The steps of the thread -/

/-- The thread or another one adds items to what waits at the site. -/
theorem OnCourse.gain (course : peer.OnCourse schema invariant kind ledger)
    {items : List (WorkItem κ)} (gains : Workplace.Gains items peer.workplace now.workplace)
    (settings : now.replica.settings = peer.replica.settings)
    (joining : now.errand.isJoining = peer.errand.isJoining)
    (supplied : now.supplied = peer.supplied)
    (inside : now.replica.position ≤ ledger.appended.length)
    (heeds : now.errand.Heeds schema invariant kind ledger now.replica.position)
    (fresh : peer.errand.isJoining = true →
      now.replica.position = peer.replica.position ∧ items.flatMap WorkItem.updates = [])
    (steady : now.hasReloaded = false → peer.hasReloaded = false ∧
      peer.replica.position ≤ now.replica.position ∧ peer.reached ≤ now.reached ∧
      items.flatMap WorkItem.updates =
        (ledger.between peer.reached now.reached).flatMap LogRecord.updates) :
    now.OnCourse schema invariant kind ledger ∧ Onward schema ledger ledger peer now := by
  have opened : now.isOpen = peer.isOpen := by rw [isOpen, joining, supplied, isOpen]
  have same : now.origin schema = peer.origin schema := by
    rw [origin, supplied, gains.root, origin]
  have fed (kept : now.hasReloaded = false) (target : Nat)
      (added : target ≤ peer.workplace.enqueued) (mark : Nat)
      (fed : peer.Fed schema ledger (target - peer.workplace.processed) mark) :
      now.Fed schema ledger (target - now.workplace.processed) mark := by
    obtain ⟨-, -, onward, held⟩ := steady kept
    rw [Fed, same, gains.waiting, gains.processed]
    have counted := course.counted
    unfold Workplace.Counted at counted
    exact Ledger.Feeds.add fed (by omega) onward held
  refine ⟨⟨gains.manned, gains.counted course.counted, gains.schema.trans course.typed,
      settings ▸ course.suits, inside, heeds, ?_, ?_, ?_, ?_⟩,
    ⟨fun joined => joining.trans joined, fun open_ => opened.trans open_,
      fun kept => (steady kept).1, fun kept => (steady kept).2.1, ?_, fun _ => fed⟩⟩
  · intro joins
    have joins := joining.symm.trans joins
    obtain ⟨none, start, idle⟩ := course.fresh joins
    obtain ⟨still, empty⟩ := fresh joins
    refine ⟨supplied.trans none, still.trans start, ?_⟩
    rw [gains.waiting, List.flatMap_append, idle, empty]
    rfl
  · exact fun closed => gains.asleep (course.asleep (opened.symm.trans closed))
  · exact fun open_ => gains.started.trans (course.started (opened.symm.trans open_))
  · intro joined kept
    have still := fed kept 0 (Nat.zero_le _) 0
      (by simpa using course.fed (joining.symm.trans joined) (steady kept).1)
    simpa using still
  · rw [gains.enqueued]
    exact Nat.le_add_right _ _

/-- The thread turns to something else. -/
theorem OnCourse.turn (course : peer.OnCourse schema invariant kind ledger) {replica : Replica}
    {errand : Errand} (settings : replica.settings = peer.replica.settings)
    (joining : errand.isJoining = peer.errand.isJoining)
    (onward : peer.replica.position ≤ replica.position)
    (reached : replica.position + errand.inHand = peer.reached)
    (heeds : errand.Heeds schema invariant kind ledger replica.position) :
    { peer with replica := replica, errand := errand }.OnCourse schema invariant kind ledger ∧
      Onward schema ledger ledger peer { peer with replica := replica, errand := errand } := by
  have inside := course.reached_le
  refine course.gain (Workplace.Gains.refl course.manned) settings joining rfl
    (by dsimp only; omega) heeds ?_ ?_
  · intro joins
    refine ⟨?_, rfl⟩
    have before := inHand_of_isJoining joins
    unfold Peer.reached at reached
    dsimp only
    omega
  · intro kept
    refine ⟨kept, onward, Nat.le_of_eq reached.symm, ?_⟩
    rw [show Peer.reached { peer with replica := replica, errand := errand } = peer.reached
      from reached, Ledger.between_self]
    rfl

/-- The thread has joined the log. -/
theorem OnCourse.join (course : peer.OnCourse schema invariant kind ledger)
    (upholds : Chore.Upholds schema invariant kind) (joining : peer.errand.isJoining = true)
    {position : Nat} {root : Node} (loaded : Loaded schema ledger position root) :
    let now := { peer with
      replica := peer.replica.startAt position
      errand := .following (.catchUp schema)
      supplied := some root }
    now.OnCourse schema invariant kind ledger ∧ Onward schema ledger ledger peer now := by
  obtain ⟨document, stored, same, read, inside⟩ := loaded
  obtain ⟨-, start, idle⟩ := course.fresh joining
  have closed : peer.isOpen = false := by simp [isOpen, joining]
  refine ⟨⟨course.manned, course.counted, course.typed, course.suits, inside,
      Chore.heeds_catchUp upholds inside, nofun, fun _ => course.asleep closed, ?_, ?_⟩,
    ⟨fun _ => rfl, fun opened => ?_, id, ?_, Nat.le_refl _, fun joined => ?_⟩⟩
  · intro opened
    simp [isOpen] at opened
  · intro _ _
    refine ⟨position, Nat.zero_le _, Nat.le_refl _, ?_, ?_⟩
    · refine ⟨document, stored, root, read, Nat.le_of_eq same, inside, ?_⟩
      rw [same, Ledger.fold_self]
      rfl
    · rw [List.drop_zero, idle]
      exact (congrArg (List.flatMap _) (Ledger.between_self ledger position)).symm
  · exact absurd (closed.symm.trans opened) Bool.false_ne_true
  · intro _
    rw [start]
    exact Nat.zero_le _
  · exact absurd (joined.symm.trans joining) Bool.false_ne_true

/-- The site gets the record of the position. -/
theorem OnCourse.receive (course : peer.OnCourse schema invariant kind ledger)
    {record : LogRecord} {next : Chore} (passing : peer.errand = .following (.pass record next)) :
    let now := { peer with
      workplace := peer.workplace.receive record
      errand := .following next }
    now.OnCourse schema invariant kind ledger ∧ Onward schema ledger ledger peer now := by
  have heeds := course.heeds
  rw [passing] at heeds
  obtain ⟨-, found, rest⟩ := heeds
  have reached : peer.reached = peer.replica.position := by rw [Peer.reached, passing]; rfl
  refine course.gain (Workplace.Gains.receive course.manned record) rfl (by rw [passing]; rfl) rfl
    course.inside (Errand.heeds_following rest) (by rw [passing]; nofun) fun kept =>
      ⟨kept, Nat.le_refl _, ?_, ?_⟩
  · rw [reached]
    exact Nat.le_add_right _ _
  · rw [reached, Peer.reached, Errand.inHand, rest.inHand_eq, Ledger.between_succ found]
    simp [List.flatMap_map, WorkItem.updates]

/-- Whatever chore the thread goes on with, the peer stays on its course. -/
theorem OnCourse.pursue (course : peer.OnCourse schema invariant kind ledger)
    (upholds : Chore.Upholds schema invariant kind) (tidy : ledger.Tidy) (moment : Nat)
    {chore : Chore} (following : peer.errand = .following chore) :
    (peer.pursue schema moment chore).OnCourse schema invariant kind ledger ∧
      Onward schema ledger ledger peer (peer.pursue schema moment chore) := by
  obtain ⟨workplace, replica, errand, supplied, hasReloaded⟩ := peer
  cases following
  have heeds := course.heeds
  have rests := course.later (.refl ledger)
  cases chore with
  | rest isRead =>
      simp only [Peer.pursue]
      split
      · exact course.turn rfl rfl (Nat.le_refl _) rfl (Chore.heeds_catchUp upholds course.inside)
      · exact rests
  | consult program next =>
      simp only [Peer.pursue]
      split
      · rename_i result ended
        have rest := heeds.2.result ended
        exact course.turn rfl rfl (Nat.le_refl _) (congrArg _ rest.inHand_eq)
          (Errand.heeds_following rest)
      · exact rests
  | look next =>
      have rest := heeds.2 replica rfl course.suits
      exact course.turn rfl rfl (Nat.le_refl _) (congrArg _ rest.inHand_eq)
        (Errand.heeds_following rest)
  | pass record next => exact course.receive rfl
  | advance number next =>
      obtain ⟨-, numbered, rest⟩ := heeds
      obtain ⟨record, found, same⟩ := Option.map_eq_some_iff.mp numbered
      have position : (replica.advance number moment).position = replica.position + 1 :=
        congrArg (· + 1) (same.symm.trans (tidy.number_eq found))
      refine course.turn rfl rfl ?_ ?_ ?_
      · rw [position]
        exact Nat.le_succ _
      · rw [position]
        exact congrArg _ rest.inHand_eq
      · rw [position]
        exact Errand.heeds_following rest
  | takeOver position root next =>
      obtain ⟨-, inside, rest⟩ := heeds
      exact course.gain (Workplace.Gains.offer course.manned _) rfl rfl rfl inside
        (Errand.heeds_following rest) nofun nofun
  | compacted next =>
      exact course.turn rfl rfl (Nat.le_refl _) (congrArg _ heeds.2.inHand_eq)
        (Errand.heeds_following heeds.2)

theorem OnCourse.act (course : peer.OnCourse schema invariant kind ledger)
    (upholds : Chore.Upholds schema invariant kind) (tidy : ledger.Tidy) (moment : Nat) :
    (peer.act schema moment).OnCourse schema invariant kind ledger ∧
      Onward schema ledger ledger peer (peer.act schema moment) := by
  unfold Peer.act
  split
  · rename_i program joining
    have heeds := course.heeds
    rw [joining] at heeds
    split
    · rename_i position root ended
      exact course.join upholds (by rw [joining]; rfl) (heeds.result ended _ rfl)
    · exact course.later (.refl ledger)
  · rename_i chore following
    exact course.pursue upholds tidy moment following

/-! ### The steps of the site -/

/-- The site starts from the tree that was supplied, completed by the defaults. -/
theorem OnCourse.launch (course : peer.OnCourse schema invariant kind ledger) :
    (peer.launch schema).OnCourse schema invariant kind ledger ∧
      Onward schema ledger ledger peer (peer.launch schema) := by
  unfold Peer.launch
  cases supplied : peer.supplied with
  | none => exact course.later (.refl ledger)
  | some root =>
      have joined : peer.errand.isJoining = false := by
        cases joining : peer.errand.isJoining with
        | false => rfl
        | true => exact absurd ((course.fresh joining).1.symm.trans supplied) nofun
      have origin : peer.origin schema = schema.polyfill root := by rw [Peer.origin, supplied]; rfl
      dsimp only
      split
      · obtain ⟨manned, -⟩ := Workplace.start_spec course.manned (schema.polyfill root)
        obtain ⟨waiting, processed, enqueued, started⟩ :=
          Workplace.start_counts course.manned (schema.polyfill root)
        have fed {count mark : Nat} (fed : peer.Fed schema ledger count mark) :
            Fed schema ledger count mark
              { peer with
                workplace := peer.workplace.change
                  (peer.workplace.site.start (schema.polyfill root))
                supplied := none } := by
          rw [Fed, origin] at fed
          rw [Fed, waiting]
          exact fed
        refine ⟨⟨manned, ?_, course.typed, course.suits, course.inside, course.heeds, ?_, ?_,
            fun _ => started, fun joined kept => fed (course.fed joined kept)⟩,
          ⟨id, fun _ => ?_, id, fun _ => Nat.le_refl _, Nat.le_of_eq enqueued.symm, ?_⟩⟩
        · rw [Workplace.Counted, enqueued, processed, waiting]
          exact course.counted
        · intro joining
          exact absurd (joined.symm.trans joining) Bool.false_ne_true
        · intro closed
          simp [isOpen, joined] at closed
        · simp [isOpen, joined]
        · intro _ _ target _ mark before
          rw [processed]
          exact fed before
      · exact course.later (.refl ledger)

/-- The drainer processes what it holds, or asks for the next item. -/
theorem OnCourse.work (course : peer.OnCourse schema invariant kind ledger) :
    { peer with workplace := peer.workplace.step }.OnCourse schema invariant kind ledger ∧
      Onward schema ledger ledger peer { peer with workplace := peer.workplace.step } := by
  cases opened : peer.isOpen with
  | false =>
      rw [Workplace.step_of_asleep (course.asleep opened)]
      exact course.later (.refl ledger)
  | true =>
      have ⟨joined, unsupplied⟩ : peer.errand.isJoining = false ∧ peer.supplied = none := by
        simpa [isOpen] using opened
      obtain ⟨counted, enqueued, started⟩ := Workplace.step_counts course.counted
      have typed := (Workplace.root_step peer.workplace).1.trans course.typed
      have fed (target mark : Nat)
          (fed : peer.Fed schema ledger (target - peer.workplace.processed) mark) :
          Fed schema ledger (target - peer.workplace.step.processed) mark
            { peer with workplace := peer.workplace.step } := by
        rw [Fed, origin, unsupplied] at fed ⊢
        exact Workplace.feeds_step course.typed course.reached_le fed
      refine ⟨⟨Workplace.manned_step course.manned, counted, typed, course.suits, course.inside,
          course.heeds, ?_, ?_, fun _ => started.trans (course.started opened), ?_⟩,
        ⟨id, id, id, fun _ => Nat.le_refl _, Nat.le_of_eq enqueued.symm,
          fun _ _ target _ => fed target⟩⟩
      · intro joining
        exact absurd (joined.symm.trans joining) Bool.false_ne_true
      · intro closed
        exact absurd (opened.symm.trans closed) nofun
      · intro _ kept
        have still := fed 0 0 (by simpa using course.fed joined kept)
        simpa using still

theorem OnCourse.register (course : peer.OnCourse schema invariant kind ledger) (name : String)
    (scope : Accessor) (priority : Int) (payload : κ) :
    let now := { peer with
      workplace := peer.workplace.change
        (peer.workplace.site.register name scope priority payload) }
    now.OnCourse schema invariant kind ledger ∧ Onward schema ledger ledger peer now := by
  refine course.gain (Workplace.Gains.enqueue course.manned _ _) rfl rfl rfl course.inside
    course.heeds (fun _ => ⟨rfl, rfl⟩) fun kept => ⟨kept, Nat.le_refl _, Nat.le_refl _, ?_⟩
  exact (congrArg (List.flatMap _) (Ledger.between_self ledger _)).symm

/-- A step of a peer keeps the invariant of the log, and the peer on its course. -/
theorem OnCourse.step (course : peer.OnCourse schema invariant kind ledger)
    (upholds : Chore.Upholds schema invariant kind) (tidy : ledger.Tidy) (holds : invariant ledger)
    (event : PeerEvent κ) :
    invariant (peer.after schema ledger event).2 ∧
      ledger.Grows (peer.after schema ledger event).2 ∧
      (peer.after schema ledger event).1.OnCourse schema invariant kind
        (peer.after schema ledger event).2 ∧
      Onward schema ledger (peer.after schema ledger event).2 peer
        (peer.after schema ledger event).1 := by
  cases event with
  | call =>
      obtain ⟨kept, grows, heeds⟩ := course.heeds.answered holds
      obtain ⟨joining, inHand⟩ := peer.errand.same_answered ledger
      obtain ⟨before, rested⟩ := course.later grows
      obtain ⟨now, turned⟩ :=
        before.turn rfl joining (Nat.le_refl _) (congrArg _ inHand) heeds
      exact ⟨kept, grows, now, rested.trans turned⟩
  | refuse error =>
      simp only [Peer.after]
      split
      · rename_i transient
        obtain ⟨joining, inHand⟩ := peer.errand.same_refused error
        exact ⟨holds, .refl ledger, course.turn rfl joining (Nat.le_refl _) (congrArg _ inHand)
          (course.heeds.refused holds transient)⟩
      · exact ⟨holds, .refl ledger, course.later (.refl ledger)⟩
  | act moment => exact ⟨holds, .refl ledger, course.act upholds tidy moment⟩
  | launch => exact ⟨holds, .refl ledger, course.launch⟩
  | work => exact ⟨holds, .refl ledger, course.work⟩
  | register name scope priority payload =>
      exact ⟨holds, .refl ledger, course.register name scope priority payload⟩
  | close =>
      exact ⟨holds, .refl ledger, course.turn rfl rfl (Nat.le_refl _) rfl course.heeds⟩

end Peer

/-! ### Peers on one log -/

namespace Fleet

open LogProgram (Returns)
open ReplicaSettings (Loaded)

variable {κ : Type} {schema : Schema} {invariant : Ledger → Prop} {kind : ReplicaSettings → Prop}
  {fleet : Fleet κ}

/-- The log has the invariant, and every peer is on its course along it. -/
structure OnCourse (schema : Schema) (invariant : Ledger → Prop) (kind : ReplicaSettings → Prop)
    (fleet : Fleet κ) : Prop where
  pool : fleet.pool.Keeps invariant
  peers : ∀ peer ∈ fleet.peers, peer.OnCourse schema invariant kind fleet.pool.ledger

/-- What a step brings to the log keeps the invariant. -/
def Brings (schema : Schema) (invariant : Ledger → Prop) (kind : ReplicaSettings → Prop) :
    FleetEvent κ → Prop
  | .enroll _ _ settings standard => kind settings ∧ ∀ ledger,
      (settings.join schema standard).Ensures invariant
        (Returns fun joined later => Loaded schema later joined.1 joined.2) ledger
  | .submit _ correlation body => ∀ settings ledger,
      ((LogTask.append settings correlation body).program schema).Ensures invariant
        (fun _ _ => True) ledger
  | _ => True

/-- From one moment to another the log grows, and those who wait at the peers can rely on them. -/
structure Onward (schema : Schema) (before after : Fleet κ) : Prop where
  grows : before.pool.ledger.Grows after.pool.ledger
  peers : ∀ (index : Nat) (peer : Peer κ), before.peers[index]? = some peer →
    ∃ now, after.peers[index]? = some now ∧
      Peer.Onward schema before.pool.ledger after.pool.ledger peer now

theorem onCourse_empty (start : invariant .empty) :
    (empty : Fleet κ).OnCourse schema invariant kind :=
  ⟨⟨start, fun _ none => nomatch none⟩, fun _ none => nomatch none⟩

/-- The log changes, and the peers rest. -/
theorem OnCourse.rest (course : fleet.OnCourse schema invariant kind) {pool : LogPool}
    (keeps : pool.Keeps invariant) (grows : fleet.pool.ledger.Grows pool.ledger) :
    { fleet with pool := pool }.OnCourse schema invariant kind ∧
      Onward schema fleet { fleet with pool := pool } := by
  refine ⟨⟨keeps, fun peer member => ((course.peers peer member).later grows).1⟩, grows, ?_⟩
  intro index peer found
  exact ⟨peer, found, ((course.peers peer (List.mem_of_getElem? found)).later grows).2⟩

/-- A step of anyone keeps all peers on their courses. -/
theorem OnCourse.after (course : fleet.OnCourse schema invariant kind)
    (upholds : Chore.Upholds schema invariant kind)
    (tidy : ∀ ledger, invariant ledger → ledger.Tidy) {event : FleetEvent κ}
    (brings : Brings schema invariant kind event) :
    (fleet.after schema event).OnCourse schema invariant kind ∧
      Onward schema fleet (fleet.after schema event) := by
  have rests := course.rest course.pool (.refl _)
  cases event with
  | enroll name identity settings standard =>
      obtain ⟨suits, joins⟩ := brings
      refine ⟨⟨course.pool, fun peer member => ?_⟩, .refl _, fun index peer found => ?_⟩
      · rcases List.mem_append.mp member with there | new
        · exact course.peers peer there
        · rw [List.mem_singleton.mp new]
          exact Peer.onCourse_new _ name identity suits (joins _)
      · have inside := (List.getElem?_eq_some_iff.mp found).1
        refine ⟨peer, (List.getElem?_append_left inside).trans found, ?_⟩
        exact ((course.peers peer (List.mem_of_getElem? found)).later (.refl _)).2
  | submit index correlation body =>
      simp only [Fleet.after]
      split
      · rename_i peer found
        split
        · exact rests
        · refine course.rest ⟨course.pool.holds, fun program member => ?_⟩ (.refl _)
          rcases List.mem_append.mp member with there | new
          · exact course.pool.tasks program there
          · rw [List.mem_singleton.mp new]
            exact brings _ _
      · exact rests
  | proceed task =>
      exact course.rest (course.pool.after fun _ same => nomatch same) (fleet.pool.grows_after _)
  | refuse task error =>
      exact course.rest (course.pool.after fun _ same => nomatch same) (fleet.pool.grows_after _)
  | peer index event =>
      simp only [Fleet.after]
      split
      · rename_i peer found
        obtain ⟨holds, grows, stepped, onward⟩ :=
          (course.peers peer (List.mem_of_getElem? found)).step upholds
            (tidy _ course.pool.holds) course.pool.holds event
        have others {other : Peer κ} (member : other ∈ fleet.peers) :=
          (course.peers other member).later grows
        refine ⟨⟨⟨holds, fun program there => ?_⟩, fun other there => ?_⟩, grows, ?_⟩
        · exact (course.pool.tasks program there).later LogPool.stable_true grows
        · rcases List.mem_or_eq_of_mem_set there with before | same
          · exact (others before).1
          · rw [same]
            exact stepped
        · intro place other there
          by_cases same : index = place
          · subst same
            cases found.symm.trans there
            exact ⟨_, List.getElem?_set_self (List.getElem?_eq_some_iff.mp found).1, onward⟩
          · exact ⟨other, (List.getElem?_set_ne same).trans there,
              (others (List.mem_of_getElem? there)).2⟩
      · exact rests

/-- Every run whose steps bring what keeps the invariant keeps all peers on their courses. -/
theorem onCourse_of_brings (upholds : Chore.Upholds schema invariant kind)
    (tidy : ∀ ledger, invariant ledger → ledger.Tidy) (start : invariant .empty)
    {events : List (FleetEvent κ)}
    (brings : ∀ event ∈ events, Brings schema invariant kind event) :
    (run schema events).OnCourse schema invariant kind := by
  induction events using List.reverseRecOn with
  | nil => exact onCourse_empty start
  | append_singleton events event ih =>
      have before := ih fun other member => brings other (List.mem_append_left _ member)
      rw [run_concat]
      exact (before.after upholds tidy (brings event (by simp))).1

end Fleet

end StateTree
