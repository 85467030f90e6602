/-
Module: StateTree.Proofs.Flushing
Purpose: A flush is a barrier. When it returns, the replica has passed its record, and the root of
  the site has all updates that had been accepted before the flush was called. Who waits for the
  barrier and for the site relies on the course of the peer between its steps.
-/
import Mathlib.Data.List.Induction
import StateTree.Proofs.Followers
import StateTree.Proofs.Published
import StateTree.Proofs.Traffic

namespace StateTree

section Barriers

variable {κ : Type} {schema : Schema} {ledger : Ledger}

/-! ### Who waits at a peer -/

namespace Peer

variable {before after : Ledger} {peer now : Peer κ} {barrier target : Nat}

/-- The peer has joined the log, and passed a barrier. -/
def HasPassed (barrier : Nat) (peer : Peer κ) : Prop :=
  peer.errand.isJoining = false ∧
    (peer.hasReloaded = false → peer.replica.hasPassed barrier = true)

/-- Once the site has done its first `target` items of work, its root has the records up to a
barrier. -/
def Settles (schema : Schema) (ledger : Ledger) (barrier target : Nat) (peer : Peer κ) : Prop :=
  target ≤ peer.workplace.enqueued ∧ (peer.hasReloaded = false →
    peer.Fed schema ledger (target - peer.workplace.processed) (barrier + 1))

theorem HasPassed.later (passed : peer.HasPassed barrier)
    (onward : Onward schema before after peer now) : now.HasPassed barrier := by
  refine ⟨onward.joined passed.1, fun kept => ?_⟩
  have early := of_decide_eq_true (passed.2 (onward.kept kept))
  exact decide_eq_true (Nat.lt_of_lt_of_le early (onward.position kept))

theorem Settles.later (settles : peer.Settles schema before barrier target)
    (passed : peer.HasPassed barrier) (onward : Onward schema before after peer now) :
    now.Settles schema after barrier target := by
  obtain ⟨added, fed⟩ := settles
  refine ⟨Nat.le_trans added onward.enqueued, fun kept => ?_⟩
  exact onward.fed passed.1 kept target added _ (fed (onward.kept kept))

/-- All work that a site has when a barrier is passed comes of records up to the barrier, and
beyond. -/
theorem OnCourse.settles {invariant : Ledger → Prop} {kind : ReplicaSettings → Prop}
    (course : peer.OnCourse schema invariant kind ledger) (passed : peer.HasPassed barrier) :
    peer.Settles schema ledger barrier peer.workplace.enqueued := by
  refine ⟨Nat.le_refl _, fun kept => ?_⟩
  have left : peer.workplace.enqueued - peer.workplace.processed =
      peer.workplace.waiting.length :=
    Nat.sub_eq_of_eq_add' course.counted
  have early := of_decide_eq_true (passed.2 kept)
  rw [left]
  exact ((course.fed passed.1 kept).all course.reached_le).mono
    (Nat.le_trans early (Nat.le_add_right _ _))

/-- The wait for a site that is at work is over when its root has the records up to the barrier. -/
theorem Settles.done (settles : peer.Settles schema ledger barrier target)
    (started : peer.workplace.site.queue.isStarted = true)
    (reached : peer.workplace.site.queue.hasReached target = true) :
    peer.Settles schema ledger barrier 0 := by
  refine ⟨Nat.zero_le _, fun kept => ?_⟩
  have completed : target ≤ peer.workplace.site.queue.completed := by
    simpa [WorkQueue.hasReached, started] using reached
  have processed : target ≤ peer.workplace.processed :=
    Nat.le_trans completed (Nat.le_add_right _ _)
  rw [Nat.zero_sub, ← Nat.sub_eq_zero_of_le processed]
  exact settles.2 kept

end Peer

/-! ### What is appended for a call -/

namespace Visit

/-- The record of a number is the one that a call has appended. -/
def Recorded (visit : Visit) (ledger : Ledger) (number : Nat) : Prop :=
  ledger.appended[number]? = some ⟨number, visit.correlation, visit.request.body⟩

/-- What has come of the append: a record of a number that will do, or a failure for the time
being. -/
def Appended (visit : Visit) (clears : Nat → Prop) : Except LogError Nat → Ledger → Prop
  | .ok number, ledger => clears number ∧ visit.Recorded ledger number
  | .error error, _ => error.isTransient = true

variable {before after : Ledger} {visit : Visit} {clears cleared : Nat → Prop} {number : Nat}

theorem Recorded.later (recorded : visit.Recorded before number) (grows : before.Grows after) :
    visit.Recorded after number := grows.getElem?_eq recorded

theorem Recorded.lt (recorded : visit.Recorded ledger number) :
    number < ledger.appended.length :=
  (List.getElem?_eq_some_iff.mp recorded).1

theorem stable_appended (result : Except LogError Nat) :
    LogProgram.Stable (visit.Appended clears result) := by
  intro before after grows appended
  cases result with
  | ok number => exact ⟨appended.1, appended.2.later grows⟩
  | error error => exact appended

/-- What is appended from some moment on comes after what the log had then. -/
theorem ensures_appended (settings : ReplicaSettings)
    (clear : ∀ number, ledger.appended.length ≤ number → clears number) :
    (settings.attempt (.append visit.correlation visit.request.body)).Ensures
      (Ledger.Consistent schema) (visit.Appended clears) ledger := by
  apply LogProgram.ensures_attempt
  intro later grows consistent
  have head : later.log.head = later.appended.length := consistent.tidy.head_eq
  refine ⟨consistent.append _ _, ⟨clear _ ?_, ?_⟩, fun error transient => transient⟩
  · rw [head]
    exact grows.appended.length_le
  · change (later.appended ++ [_])[later.log.head]? = _
    rw [head, List.getElem?_concat_length]

/-! ### What a call relies on -/

/-- What holds of a call, by how far it has come. `clears` holds of the numbers that come after all
records of the calls that had returned when this one was made. -/
def Meets (schema : Schema) (ledger : Ledger) (peer : Peer κ) (clears : Nat → Prop)
    (visit : Visit) : Prop :=
  match visit.progress with
  | .appending program =>
      program.Ensures (Ledger.Consistent schema) (visit.Appended clears) ledger
  | .awaiting barrier =>
      visit.request.isFlush = true ∧ clears barrier ∧ visit.Recorded ledger barrier
  | .passed barrier => visit.request.isFlush = true ∧ clears barrier ∧
      visit.Recorded ledger barrier ∧ peer.HasPassed barrier
  | .settling barrier target => visit.request.isFlush = true ∧ clears barrier ∧
      visit.Recorded ledger barrier ∧ peer.HasPassed barrier ∧
        peer.Settles schema ledger barrier target
  | .returned (.ok number) _ => clears number ∧ visit.Recorded ledger number ∧
      (visit.request.isFlush = true → peer.HasPassed number ∧
        (visit.isInside = false → visit.isEarly = false →
          peer.Settles schema ledger number 0))
  | .returned (.error error) _ => error = .shutdown ∨ ∃ fault, error = .flushFailure fault

variable {peer now : Peer κ}

/-- The peer goes on, and the call rests. -/
theorem Meets.later (meets : visit.Meets schema before peer clears)
    (grows : before.Grows after) (onward : Peer.Onward schema before after peer now)
    (still : ∀ number, clears number → cleared number) :
    visit.Meets schema after now cleared := by
  obtain ⟨place, request, correlation, isInside, isEarly, called, progress⟩ := visit
  cases progress with
  | appending program =>
      refine (LogProgram.Ensures.later stable_appended meets grows).weaken ?_
      intro result later appended
      cases result with
      | ok number => exact ⟨still number appended.1, appended.2⟩
      | error error => exact appended
  | awaiting barrier =>
      obtain ⟨flushes, clear, recorded⟩ := meets
      exact ⟨flushes, still barrier clear, recorded.later grows⟩
  | passed barrier =>
      obtain ⟨flushes, clear, recorded, passed⟩ := meets
      exact ⟨flushes, still barrier clear, recorded.later grows, passed.later onward⟩
  | settling barrier target =>
      obtain ⟨flushes, clear, recorded, passed, settles⟩ := meets
      exact ⟨flushes, still barrier clear, recorded.later grows, passed.later onward,
        settles.later passed onward⟩
  | returned result moment =>
      cases result with
      | error error => exact meets
      | ok number =>
          obtain ⟨clear, recorded, flushed⟩ := meets
          refine ⟨still number clear, recorded.later grows, fun flushes => ?_⟩
          obtain ⟨passed, settles⟩ := flushed flushes
          exact ⟨passed.later onward,
            fun outside late => (settles outside late).later passed onward⟩

/-- A call that is made appends its record after all that the log has by then. -/
theorem meets_new (number : Nat) (peer : Peer κ) (request : Request) (correlation : Uuid)
    (isInside : Bool) (moment : Nat)
    (clear : ∀ number, ledger.appended.length ≤ number → clears number) :
    (Visit.new number peer request correlation isInside moment).Meets schema ledger peer
      clears := by
  unfold Visit.new
  split
  · exact Or.inl rfl
  · exact ensures_appended peer.replica.settings clear

/-- The next step of a call keeps the log consistent and what holds of the call. -/
theorem Meets.proceed (meets : visit.Meets schema ledger peer clears)
    {kind : ReplicaSettings → Prop}
    (course : peer.OnCourse schema (Ledger.Consistent schema) kind ledger)
    (consistent : ledger.Consistent schema) (opened : visit.isEarly = false → peer.isOpen = true)
    (moment : Nat) :
    (visit.proceed peer ledger moment).2.Consistent schema ∧
      ledger.Grows (visit.proceed peer ledger moment).2 ∧
      { visit with progress := (visit.proceed peer ledger moment).1 }.Meets schema
        (visit.proceed peer ledger moment).2 peer clears := by
  have rests {progress : Progress} (meets : { visit with progress := progress }.Meets schema ledger
      peer clears) :
      ledger.Consistent schema ∧ ledger.Grows ledger ∧
        { visit with progress := progress }.Meets schema ledger peer clears :=
    ⟨consistent, .refl ledger, meets⟩
  obtain ⟨place, request, correlation, isInside, isEarly, called, progress⟩ := visit
  cases progress with
  | appending program =>
      have ensures : program.Ensures (Ledger.Consistent schema) _ ledger := meets
      unfold Visit.proceed
      dsimp only
      split
      · exact ensures.advance consistent
      · rename_i error ended
        have transient : error.isTransient = true := ensures.result ended
        refine rests (Or.inr ?_)
        rcases LogError.transient_cases transient with rfl | ⟨reason, rfl⟩
        · exact ⟨_, rfl⟩
        · exact ⟨_, rfl⟩
      · rename_i number ended
        obtain ⟨clear, recorded⟩ := ensures.result ended
        split
        · rename_i flushes
          exact rests ⟨flushes, clear, recorded⟩
        · rename_i submits
          exact rests ⟨clear, recorded, fun flushes => absurd flushes submits⟩
  | awaiting barrier =>
      obtain ⟨flushes, clear, recorded⟩ := meets
      unfold Visit.proceed
      dsimp only
      split
      · exact rests (Or.inl rfl)
      · split
        · rename_i passed
          have joined : peer.errand.isJoining = false := by
            cases joining : peer.errand.isJoining with
            | false => rfl
            | true =>
                rw [Replica.hasPassed, (course.fresh joining).2.1] at passed
                simp at passed
          exact rests ⟨flushes, clear, recorded, joined, fun _ => passed⟩
        · exact rests ⟨flushes, clear, recorded⟩
  | passed barrier =>
      obtain ⟨flushes, clear, recorded, passed⟩ := meets
      unfold Visit.proceed
      dsimp only
      split
      · rename_i inside
        exact rests ⟨clear, recorded, fun _ =>
          ⟨passed, fun outside => absurd (inside.symm.trans outside) nofun⟩⟩
      · exact rests ⟨flushes, clear, recorded, passed, course.settles passed⟩
  | settling barrier target =>
      obtain ⟨flushes, clear, recorded, passed, settles⟩ := meets
      unfold Visit.proceed
      dsimp only
      split
      · rename_i done
        exact rests ⟨clear, recorded, fun _ =>
          ⟨passed, fun _ late => settles.done (course.started (opened late)) done⟩⟩
      · exact rests ⟨flushes, clear, recorded, passed, settles⟩
  | returned result since => exact rests meets

/-- A barrier is only given up while it is not passed. -/
theorem Meets.expire (meets : visit.Meets schema ledger peer clears) (moment : Nat) :
    { visit with progress := visit.expire peer moment }.Meets schema ledger peer clears := by
  obtain ⟨place, request, correlation, isInside, isEarly, called, progress⟩ := visit
  cases progress with
  | awaiting barrier =>
      unfold Visit.expire
      dsimp only
      split
      · exact meets
      · exact Or.inr ⟨_, rfl⟩
  | _ => exact meets

theorem Meets.refuse (meets : visit.Meets schema ledger peer clears)
    (consistent : ledger.Consistent schema) (error : LogError) :
    { visit with progress := visit.refuse error }.Meets schema ledger peer clears := by
  obtain ⟨place, request, correlation, isInside, isEarly, called, progress⟩ := visit
  cases progress with
  | appending program =>
      unfold Visit.refuse
      dsimp only
      split
      · rename_i transient
        exact LogProgram.Ensures.refuse meets consistent transient
      · exact meets
  | _ => exact meets

/-- A call returns at the moment of a step of its own. -/
theorem returned_of_proceed (visit : Visit) (peer : Peer κ) (ledger : Ledger) (moment : Nat)
    (number since : Nat)
    (ended : (visit.proceed peer ledger moment).1 = .returned (.ok number) since) :
    (visit.proceed peer ledger moment).1 = visit.progress ∨ moment ≤ since := by
  obtain ⟨place, request, correlation, isInside, isEarly, called, progress⟩ := visit
  cases progress with
  | returned result before => exact Or.inl rfl
  | _ =>
      refine Or.inr (Nat.le_of_eq ?_)
      simp only [Visit.proceed] at ended
      repeat' split at ended
      all_goals cases ended <;> rfl

theorem returned_of_expire (visit : Visit) (peer : Peer κ) (moment : Nat) (number since : Nat)
    (ended : visit.expire peer moment = .returned (.ok number) since) :
    visit.expire peer moment = visit.progress ∨ moment ≤ since := by
  obtain ⟨place, request, correlation, isInside, isEarly, called, progress⟩ := visit
  cases progress with
  | awaiting barrier =>
      simp only [Visit.expire] at ended
      split at ended <;> cases ended
  | _ => exact Or.inl rfl

theorem returned_of_refuse (visit : Visit) (error : LogError) {moment : Nat} (number since : Nat)
    (ended : visit.refuse error = .returned (.ok number) since) :
    visit.refuse error = visit.progress ∨ moment ≤ since := by
  obtain ⟨place, request, correlation, isInside, isEarly, called, progress⟩ := visit
  cases progress with
  | appending program =>
      simp only [Visit.refuse] at ended
      split at ended <;> cases ended
  | _ => exact Or.inl rfl

end Visit

/-! ### Every step keeps it -/

namespace Traffic

variable {traffic : Traffic κ}

/-- A number comes after all records of the calls that had returned when a call was made. -/
def Clears (traffic : Traffic κ) (visit : Visit) (floor : Nat) : Prop :=
  ∀ other ∈ traffic.visits, ∀ number moment, other.progress = .returned (.ok number) moment →
    moment < visit.called → number < floor

/-- What holds of the traffic at every moment. -/
structure InOrder (schema : Schema) (traffic : Traffic κ) : Prop where
  course : traffic.fleet.OnCourse schema (Ledger.Consistent schema) fun _ => True
  called : ∀ visit ∈ traffic.visits, visit.called ≤ traffic.clock
  meets : ∀ visit ∈ traffic.visits, ∃ peer, traffic.fleet.peers[visit.peer]? = some peer ∧
    (visit.isEarly = false → peer.isOpen = true) ∧
      visit.Meets schema traffic.ledger peer (traffic.Clears visit)

theorem InOrder.recorded (inOrder : traffic.InOrder schema) {visit : Visit} {number moment : Nat}
    (member : visit ∈ traffic.visits) (ended : visit.progress = .returned (.ok number) moment) :
    visit.Recorded traffic.ledger number := by
  obtain ⟨peer, -, -, meets⟩ := inOrder.meets visit member
  rw [Visit.Meets, ended] at meets
  exact meets.2.1

/-- Calls that have returned since one moment have not returned before it. -/
def Returns (traffic now : Traffic κ) : Prop :=
  ∀ other ∈ now.visits, ∀ number moment, other.progress = .returned (.ok number) moment →
    other ∈ traffic.visits ∨ traffic.clock ≤ moment

theorem Clears.later {now : Traffic κ} {visit : Visit} {floor : Nat}
    (clears : traffic.Clears visit floor) (called : visit.called ≤ traffic.clock)
    (returns : traffic.Returns now) : now.Clears visit floor := by
  intro other among number moment ended early
  rcases returns other among number moment ended with old | late
  · exact clears other old number moment ended early
  · exact absurd (Nat.lt_of_lt_of_le early called) (Nat.not_lt.mpr late)

/-- The peers go on, and a call rests. -/
theorem InOrder.meets_later {now : Traffic κ} (inOrder : traffic.InOrder schema)
    (onward : Fleet.Onward schema traffic.fleet now.fleet) (returns : traffic.Returns now)
    {visit : Visit} (member : visit ∈ traffic.visits) :
    ∃ peer, now.fleet.peers[visit.peer]? = some peer ∧
      (visit.isEarly = false → peer.isOpen = true) ∧
        visit.Meets schema now.ledger peer (now.Clears visit) := by
  obtain ⟨before, found, opened, meets⟩ := inOrder.meets visit member
  obtain ⟨peer, there, further⟩ := onward.peers _ _ found
  exact ⟨peer, there, fun late => further.opened (opened late),
    meets.later onward.grows further fun _ clears =>
      clears.later (inOrder.called visit member) returns⟩

/-- A step of the peers. -/
theorem InOrder.sail (inOrder : traffic.InOrder schema) (event : FleetEvent κ) :
    (traffic.after schema (.fleet event)).InOrder schema := by
  obtain ⟨course, onward⟩ := inOrder.course.after Chore.upholds_consistent
    (fun _ consistent => consistent.tidy) (Fleet.brings_consistent event)
  have returns : traffic.Returns (traffic.after schema (.fleet event)) :=
    fun other among _ _ _ => Or.inl among
  exact ⟨course, fun visit member => Nat.le_succ_of_le (inOrder.called visit member),
    fun visit member => inOrder.meets_later onward returns member⟩

/-- A call is made. -/
theorem InOrder.call (inOrder : traffic.InOrder schema) (number : Nat) (request : Request)
    (correlation : Uuid) (isInside : Bool) :
    (traffic.after schema (.call number request correlation isInside)).InOrder schema := by
  simp only [after, act]
  split
  · rename_i peer found
    let visit := Visit.new number peer request correlation isInside traffic.clock
    have unfinished (result : Nat) (moment : Nat) :
        visit.progress ≠ .returned (.ok result) moment := by
      simp only [visit, Visit.new]
      split <;> nofun
    have returns : traffic.Returns
        { traffic with visits := traffic.visits ++ [visit], clock := traffic.clock + 1 } := by
      intro other among result moment ended
      rcases List.mem_append.mp among with old | new
      · exact Or.inl old
      · rw [List.mem_singleton.mp new] at ended
        exact absurd ended (unfinished result moment)
    refine ⟨inOrder.course, fun other among => ?_, fun other among => ?_⟩
    · rcases List.mem_append.mp among with old | new
      · exact Nat.le_succ_of_le (inOrder.called other old)
      · rw [List.mem_singleton.mp new]
        exact Nat.le_succ _
    · rcases List.mem_append.mp among with old | new
      · refine inOrder.meets_later ?_ returns old
        exact (inOrder.course.rest inOrder.course.pool (.refl _)).2
      · rw [List.mem_singleton.mp new]
        refine ⟨peer, found, ?_, Visit.meets_new number peer request correlation isInside _ ?_⟩
        · intro late
          simpa [visit, Visit.new] using late
        · intro floor late other among result moment ended _
          rcases List.mem_append.mp among with old | new
          · exact Nat.lt_of_lt_of_le (inOrder.recorded old ended).lt late
          · rw [List.mem_singleton.mp new] at ended
            exact absurd ended (unfinished result moment)
  · exact ⟨inOrder.course, fun visit member => Nat.le_succ_of_le (inOrder.called visit member),
      inOrder.meets⟩

/-- A call that was made goes on. -/
theorem InOrder.move (inOrder : traffic.InOrder schema) {index : Nat} {visit : Visit}
    {peer : Peer κ} {moved : Progress × Ledger} (found : traffic.visits[index]? = some visit)
    (there : traffic.fleet.peers[visit.peer]? = some peer)
    (consistent : moved.2.Consistent schema) (grows : traffic.ledger.Grows moved.2)
    (meets : { visit with progress := moved.1 }.Meets schema moved.2 peer (traffic.Clears visit))
    (late : ∀ number moment, moved.1 = .returned (.ok number) moment →
      moved.1 = visit.progress ∨ traffic.clock ≤ moment) :
    { traffic.move index visit moved with clock := traffic.clock + 1 }.InOrder schema := by
  have member := List.mem_of_getElem? found
  have keeps : { traffic.fleet.pool with ledger := moved.2 }.Keeps (Ledger.Consistent schema) :=
    ⟨consistent, fun program task =>
      (inOrder.course.pool.tasks program task).later LogPool.stable_true grows⟩
  obtain ⟨course, onward⟩ := inOrder.course.rest keeps grows
  have returns : traffic.Returns
      { traffic.move index visit moved with clock := traffic.clock + 1 } := by
    intro other among number moment ended
    rcases List.mem_or_eq_of_mem_set among with old | same
    · exact Or.inl old
    · subst same
      rcases late number moment ended with same | late
      · rw [same]
        exact Or.inl member
      · exact Or.inr late
  refine ⟨course, fun other among => ?_, fun other among => ?_⟩
  · rcases List.mem_or_eq_of_mem_set among with old | same
    · exact Nat.le_succ_of_le (inOrder.called other old)
    · rw [same]
      exact Nat.le_succ_of_le (inOrder.called visit member)
  · rcases List.mem_or_eq_of_mem_set among with old | same
    · exact inOrder.meets_later onward returns old
    · obtain ⟨before, found, opened, -⟩ := inOrder.meets visit member
      cases found.symm.trans there
      have rests := ((course.peers peer (List.mem_of_getElem? there)).later (.refl _)).2
      rw [same]
      exact ⟨peer, there, opened, meets.later (.refl _) rests fun _ clears =>
        clears.later (inOrder.called visit member) returns⟩

theorem InOrder.after (inOrder : traffic.InOrder schema) (event : TrafficEvent κ) :
    (traffic.after schema event).InOrder schema := by
  have rests : { traffic with clock := traffic.clock + 1 }.InOrder schema :=
    ⟨inOrder.course, fun visit member => Nat.le_succ_of_le (inOrder.called visit member),
      inOrder.meets⟩
  cases event with
  | fleet event => exact inOrder.sail event
  | call number request correlation isInside =>
      exact inOrder.call number request correlation isInside
  | proceed index =>
      simp only [Traffic.after, act]
      split
      · rename_i visit found
        split
        · rename_i peer there
          obtain ⟨before, same, opened, meets⟩ :=
            inOrder.meets visit (List.mem_of_getElem? found)
          cases same.symm.trans there
          obtain ⟨consistent, grows, still⟩ := meets.proceed
            (inOrder.course.peers peer (List.mem_of_getElem? there)) inOrder.course.pool.holds
            opened traffic.clock
          exact inOrder.move found there consistent grows still
            (visit.returned_of_proceed peer traffic.ledger traffic.clock)
        · exact rests
      · exact rests
  | refuse index error =>
      simp only [Traffic.after, act]
      split
      · rename_i visit found
        obtain ⟨peer, there, -, meets⟩ := inOrder.meets visit (List.mem_of_getElem? found)
        exact inOrder.move found there inOrder.course.pool.holds (.refl _)
          (meets.refuse inOrder.course.pool.holds error) (visit.returned_of_refuse error)
      · exact rests
  | expire index =>
      simp only [Traffic.after, act]
      split
      · rename_i visit found
        split
        · rename_i peer there
          obtain ⟨before, same, -, meets⟩ := inOrder.meets visit (List.mem_of_getElem? found)
          cases same.symm.trans there
          exact inOrder.move found there inOrder.course.pool.holds (.refl _)
            (meets.expire traffic.clock) (visit.returned_of_expire peer traffic.clock)
        · exact rests
      · exact rests

theorem inOrder_run (schema : Schema) (events : List (TrafficEvent κ)) :
    (run schema events).InOrder schema := by
  induction events using List.reverseRecOn with
  | nil =>
      refine ⟨Fleet.onCourse_empty Ledger.consistent_empty, ?_, ?_⟩
      · intro visit member
        cases member
      · intro visit member
        cases member
  | append_singleton events event ih =>
      rw [run_concat]
      exact ih.after event

/-! ### The result -/

/-- A root is what the log yields at a position that comes after the records of all calls that had
returned when a call was made. Where snapshots read back, it is the tree of the position. -/
def Covers (schema : Schema) (traffic : Traffic κ) (visit : Visit) (position : Nat) (root : Node) :
    Prop :=
  traffic.ledger.Yields schema position root ∧
    (schema.DistinctFields → schema.DefaultsFit → traffic.ledger.Faithful schema →
      traffic.ledger.treeAt? schema position = some root) ∧
    ∀ other ∈ traffic.visits, ∀ number moment,
      other.progress = .returned (.ok number) moment → moment < visit.called →
        number < position ∧ other.Recorded traffic.ledger number

/-- A flush is a barrier. Let any number of sites of one schema share a log, and let them be called
on any threads while they join, follow the log and compact, in whatever order. Where a flush of a
replica has returned well, and the replica has never taken a snapshot over, its position is past the
barrier of the flush. If the site had started when the flush was called, and the flush was not
called from a hook by the one who does the work of the site, the root of the site has the barrier
and all updates whose calls had returned well by then. A flush that has not returned well has found
the replica closed, or says that it failed. -/
theorem flush_is_barrier (schema : Schema) (events : List (TrafficEvent κ)) {visit : Visit}
    (made : visit ∈ (run schema events).visits) (flushes : visit.request = .flush)
    {result : Except PipelineError Nat} {moment : Nat}
    (returned : visit.progress = .returned result moment) {peer : Peer κ}
    (there : (run schema events).fleet.peers[visit.peer]? = some peer) :
    (∀ error, result = .error error → error = .shutdown ∨ ∃ fault, error = .flushFailure fault) ∧
      ∀ barrier, result = .ok barrier → visit.Recorded (run schema events).ledger barrier ∧
        (peer.hasReloaded = false → barrier < peer.replica.position ∧
          (visit.isInside = false → visit.isEarly = false → ∃ position, barrier < position ∧
            (run schema events).Covers schema visit position peer.workplace.site.root)) := by
  have inOrder := inOrder_run schema events
  obtain ⟨other, same, opened, meets⟩ := inOrder.meets visit made
  cases same.symm.trans there
  rw [Visit.Meets, returned] at meets
  refine ⟨fun error failed => ?_, fun barrier went => ?_⟩
  · subst failed
    exact meets
  · subst went
    obtain ⟨clears, recorded, flushed⟩ := meets
    obtain ⟨⟨joined, passed⟩, settles⟩ := flushed (by rw [flushes]; rfl)
    refine ⟨recorded, fun kept => ⟨of_decide_eq_true (passed kept), fun outside late => ?_⟩⟩
    have course := inOrder.course.peers peer (List.mem_of_getElem? there)
    have fed := (settles outside late).2 kept
    rw [Nat.zero_sub] at fed
    obtain ⟨position, further, -, yields, -⟩ := fed
    have started : peer.supplied = none := by
      have open_ := opened late
      simp only [Peer.isOpen, Bool.and_eq_true, Option.isNone_iff_eq_none] at open_
      exact open_.2
    have root : peer.origin schema = peer.workplace.site.root := by
      rw [Peer.origin, started]
      rfl
    rw [List.take_zero, root] at yields
    refine ⟨position, further, yields, fun distinct fit faithful => ?_, ?_⟩
    · exact yields.treeAt?_eq inOrder.course.pool.holds distinct fit
        (inOrder.course.pool.holds.reads faithful)
    · intro other among number moment ended early
      exact ⟨Nat.lt_trans (clears other among number moment ended early) further,
        inOrder.recorded among ended⟩

end Traffic

end Barriers

/-! ### In the sample -/

namespace Sample

/-- A site joins a log; the one that stores the first snapshot makes more calls for that. -/
def joining (index calls : Nat) (name : String) (identity : Identifier) :
    List (TrafficEvent Unit) :=
  .fleet (.enroll name identity .standard tree) ::
    List.replicate calls (.fleet (.peer index .call)) ++ [.fleet (.peer index (.act 0))]

/-- A call of a peer appends its record. -/
def appending (index peer : Nat) (request : Request) (isInside : Bool) :
    List (TrafficEvent Unit) :=
  [.call peer request (Uuid.ofNat index) isInside, .proceed index, .proceed index]

/-- The first peer reads two records and hands them on. -/
def twoRead : List (TrafficEvent Unit) :=
  [.fleet (.peer 0 (.act 1)), .fleet (.peer 0 .call), .fleet (.peer 0 (.act 1)),
    .fleet (.peer 0 (.act 1)), .fleet (.peer 0 (.act 1)), .fleet (.peer 0 (.act 1)),
    .fleet (.peer 0 (.act 1))]

/-- The title is replaced through one of two replicas, and then the other one is flushed. -/
def flushed : List (TrafficEvent Unit) :=
  joining 0 4 "first" a ++ [.fleet (.peer 0 .launch)] ++
    joining 1 2 "second" b ++ [.fleet (.peer 1 .launch)] ++
    appending 0 1 (.submit retitle) false ++ appending 1 0 .flush false ++ twoRead ++
    [.proceed 1, .proceed 1, .fleet (.peer 0 .work), .fleet (.peer 0 .work),
      .fleet (.peer 0 .work), .proceed 1]

/-- The flush returns, and what was submitted before is in the root. -/
theorem flushed_covered :
    ∃ visit ∈ (Traffic.run schema flushed).visits, visit.request = .flush ∧
      visit.progress = .returned (.ok 1) 30 ∧
        ∃ peer, (Traffic.run schema flushed).fleet.peers[visit.peer]? = some peer ∧
          1 < peer.replica.position ∧ ∃ position, 1 < position ∧
            (Traffic.run schema flushed).Covers schema visit position
              peer.workplace.site.root := by
  have calls : ((Traffic.run schema flushed).visits[1]?).map (fun visit =>
      (visit.request.isFlush, visit.progress.accepted?, visit.peer, visit.isInside,
        visit.isEarly)) = some (true, some (1, 30), 0, false, false) := by decide +kernel
  have peers : ((Traffic.run schema flushed).fleet.peers[0]?).map Peer.hasReloaded =
      some false := by decide +kernel
  obtain ⟨visit, found, same⟩ := Option.map_eq_some_iff.mp calls
  obtain ⟨peer, there, kept⟩ := Option.map_eq_some_iff.mp peers
  simp only [Prod.mk.injEq] at same
  obtain ⟨flushes, accepted, place, outside, late⟩ := same
  rw [← place] at there
  have made := List.mem_of_getElem? found
  have returned := Progress.accepted?_eq_some accepted
  obtain ⟨passed, covers⟩ := ((Traffic.flush_is_barrier schema flushed made
    (Request.eq_flush flushes) returned there).2 1 rfl).2 kept
  exact ⟨visit, made, Request.eq_flush flushes, returned, peer, there, passed,
    covers outside late⟩

/-- Someone who works at a site before it follows what is appended replaces the title, and flushes,
from a hook. -/
def flushedInside : List (TrafficEvent Unit) :=
  joining 0 4 "first" a ++
    [.fleet (.peer 0 .launch),
      .fleet (.peer 0 (.register "hook" ⟨.root, [], .struct "Root"⟩ 0 ())),
      .fleet (.peer 0 .work), .fleet (.peer 0 .work)] ++
    appending 0 0 (.submit retitle) true ++ appending 1 0 .flush true ++ twoRead ++
    [.proceed 1, .proceed 1]

/-- The title is replaced, and the replica flushed, before the site has started. -/
def flushedEarly : List (TrafficEvent Unit) :=
  joining 0 4 "first" a ++ appending 0 0 (.submit retitle) false ++
    appending 1 0 .flush false ++ twoRead ++ [.proceed 1, .proceed 1, .proceed 1]

/-- A flush has returned, and the root of the site is no fold of the log up to a position after the
record of a call that had returned before. -/
theorem exists_uncovered {events : List (TrafficEvent Unit)} {early called moment : Nat}
    {root : Node} (order : early < called)
    (first : ((Traffic.run schema events).visits[0]?).map (fun visit =>
      visit.progress.accepted?) = some (some (0, early)))
    (second : ((Traffic.run schema events).visits[1]?).map (fun visit =>
      (visit.request.isFlush, visit.progress.accepted?, visit.peer, visit.called)) =
        some (true, some (1, moment), 0, called))
    (peers : ((Traffic.run schema events).fleet.peers[0]?).map (fun peer =>
      (peer.hasReloaded, peer.workplace.site.root)) = some (false, root))
    (length : (Traffic.run schema events).ledger.appended.length = 2)
    (apart : ∀ document ∈ (Traffic.run schema events).ledger.documents,
      ∀ tree ∈ document.tree? schema, ∀ position ∈ [1, 2],
        root ≠ (Traffic.run schema events).ledger.fold schema document.position position
          (schema.polyfill tree)) :
    ∃ visit ∈ (Traffic.run schema events).visits, visit.request = .flush ∧
      visit.progress = .returned (.ok 1) moment ∧
        ∃ peer, (Traffic.run schema events).fleet.peers[visit.peer]? = some peer ∧
          peer.hasReloaded = false ∧
            ¬ ∃ position, (Traffic.run schema events).Covers schema visit position
              peer.workplace.site.root := by
  obtain ⟨other, among, accepted⟩ := Option.map_eq_some_iff.mp first
  obtain ⟨visit, found, same⟩ := Option.map_eq_some_iff.mp second
  obtain ⟨peer, there, state⟩ := Option.map_eq_some_iff.mp peers
  simp only [Prod.mk.injEq] at same state
  obtain ⟨flushes, returned, place, rfl⟩ := same
  obtain ⟨kept, rfl⟩ := state
  rw [← place] at there
  refine ⟨visit, List.mem_of_getElem? found, Request.eq_flush flushes,
    Progress.accepted?_eq_some returned, peer, there, kept, ?_⟩
  rintro ⟨position, ⟨document, stored, tree, read, -, inside, root⟩, -, before⟩
  have after := (before other (List.mem_of_getElem? among) 0 early
    (Progress.accepted?_eq_some accepted) order).1
  rw [length] at inside
  refine apart document stored tree read position ?_ root
  simp only [List.mem_cons, List.not_mem_nil, or_false]
  omega

/-- Neither flush waits for the update that was accepted before. -/
theorem flushed_uncovered :
    (∃ visit ∈ (Traffic.run schema flushedInside).visits, visit.request = .flush ∧
      visit.progress = .returned (.ok 1) 24 ∧
        ∃ peer, (Traffic.run schema flushedInside).fleet.peers[visit.peer]? = some peer ∧
          peer.hasReloaded = false ∧
            ¬ ∃ position, (Traffic.run schema flushedInside).Covers schema visit position
              peer.workplace.site.root) ∧
      ∃ visit ∈ (Traffic.run schema flushedEarly).visits, visit.request = .flush ∧
        visit.progress = .returned (.ok 1) 21 ∧
          ∃ peer, (Traffic.run schema flushedEarly).fleet.peers[visit.peer]? = some peer ∧
            peer.hasReloaded = false ∧
              ¬ ∃ position, (Traffic.run schema flushedEarly).Covers schema visit position
                peer.workplace.site.root := by
  have inside : ((Traffic.run schema flushedInside).fleet.peers[0]?).map (fun peer =>
      (peer.hasReloaded, peer.workplace.site.root)) = some (false, tree) := by decide +kernel
  have early : ((Traffic.run schema flushedEarly).fleet.peers[0]?).map (fun peer =>
      (peer.hasReloaded, peer.workplace.site.root)) = some (false, .struct .empty) := by
    decide +kernel
  constructor
  · exact exists_uncovered (by decide : 12 < 13) (by decide +kernel) (by decide +kernel) inside
      (by decide +kernel) (by decide +kernel)
  · exact exists_uncovered (by decide : 8 < 9) (by decide +kernel) (by decide +kernel) early
      (by decide +kernel) (by decide +kernel)

end Sample

end StateTree
