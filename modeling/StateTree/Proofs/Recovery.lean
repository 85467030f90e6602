/-
Module: StateTree.Proofs.Recovery
Purpose: A log in a directory after a crash that keeps the snapshot and damages the segment. The
  head is then where the records that are left end. Where that is before the position of the
  snapshot, numbers are given out again that a replica which starts from the snapshot never reads.
-/
import StateTree.Log.Replica
import StateTree.Proofs.FileStore
import StateTree.Proofs.Ledger
import StateTree.Proofs.Typing
import Mathlib.Tactic.TFAE

namespace StateTree

/-! ### After a restart -/

/-- A replica that reads a log, with the records that it has applied. -/
structure Reader where
  replica : Replica
  applied : List LogRecord
  /-- Whether a snapshot has ever taken the place of the tree. -/
  hasReloaded : Bool

namespace Reader

/-- A replica that starts from a snapshot. -/
def startAt (replica : Replica) (position : Nat) : Reader := ⟨replica.startAt position, [], false⟩

def apply (moment : Nat) (reader : Reader) (record : LogRecord) : Reader :=
  { reader with
    replica := reader.replica.advance record.number moment
    applied := reader.applied ++ [record] }

/-- The replica catches up with what the log has now. -/
def look (schema : Schema) (moment : Nat) (store : FileStore) (reader : Reader) : Reader :=
  let settings := reader.replica.settings
  let read := (settings.catchUp schema reader.replica.position).run
    (fun call store => store.perform call) store moment
  match read.1 with
  | .ok (.records records) => records.foldl (apply moment) reader
  | .ok (.snapshot position _) =>
      { reader with
        replica := reader.replica.jump position moment
        hasReloaded := true }
  | .error _ => reader

end Reader

/-- An open log with a replica that reads it, and the records that it has accepted. -/
structure Restart where
  store : FileStore
  accepted : List LogRecord
  reader : Reader

/-- What happens after a restart: anyone calls the log, or the replica catches up. -/
inductive RestartEvent : Type 1 where
  | ask {α : Type} (call : LogCall α)
  | look (moment : Nat)

namespace Restart

/-- A replica starts from a snapshot of a position. -/
def start (store : FileStore) (replica : Replica) (position : Nat) : Restart :=
  ⟨store, [], .startAt replica position⟩

def after (schema : Schema) (restart : Restart) : RestartEvent → Restart
  | .ask call =>
      let (result, store) := restart.store.perform call
      { restart with
        store := store
        accepted := restart.accepted ++ call.appended result }
  | .look moment => { restart with reader := restart.reader.look schema moment restart.store }

def run (schema : Schema) (restart : Restart) (events : List RestartEvent) : Restart :=
  events.foldl (after schema) restart

/-- What the calls among events give the log can be read back. -/
def Storable (schema : Schema) : Restart → List RestartEvent → Prop
  | _, [] => True
  | restart, .ask call :: rest =>
      call.Storable restart.store.log.head ∧ (restart.after schema (.ask call)).Storable schema rest
  | restart, .look moment :: rest => (restart.after schema (.look moment)).Storable schema rest

/-- When the replica looks at the log it has applied every record that was accepted, unless a
snapshot has taken or is to take the place of records that it has not read. -/
def CatchesUp (schema : Schema) (restart : Restart) : Prop :=
  restart.reader.hasReloaded = false →
    restart.store.log.first ≤ restart.reader.replica.position →
      ∀ moment, ∀ record ∈ restart.accepted,
        record ∈ (restart.reader.look schema moment restart.store).applied

/-- When a flush of the replica returns, whose barrier it has passed, it has applied every record
that was accepted before, unless it has taken a snapshot over. -/
def Flushes (restart : Restart) : Prop :=
  restart.reader.hasReloaded = false →
    ∀ barrier ∈ restart.accepted, restart.reader.replica.hasPassed barrier.number = true →
      ∀ record ∈ restart.accepted, record.number < barrier.number →
        record ∈ restart.reader.applied

end Restart

/-! ### Catching up -/

namespace LogProgram

variable {α β σ : Type} (perform : {β : Type} → LogCall β → σ → Except LogError β × σ)

theorem run_bind (program : LogProgram α) (next : α → LogProgram β) (state : σ) (clock : Nat) :
    (program >>= next).run perform state clock =
      match program.run perform state clock with
      | (.ok value, state, clock) => (next value).run perform state clock
      | (.error error, state, clock) => (.error error, state, clock) := by
  change (program.bind next).run perform state clock = _
  induction program generalizing state clock with
  | done result => cases result <;> rfl
  | ask call answer ih => exact ih _ _ _
  | rest time program ih => exact ih _ _

theorem run_recover (program : LogProgram α) (handle : LogError → LogProgram α) (state : σ)
    (clock : Nat) :
    (program.recover handle).run perform state clock =
      match program.run perform state clock with
      | (.ok value, state, clock) => (.ok value, state, clock)
      | (.error error, state, clock) => (handle error).run perform state clock := by
  induction program generalizing state clock with
  | done result => cases result <;> rfl
  | ask call answer ih => exact ih _ _ _
  | rest time program ih => exact ih _ _

/-- A call that is answered is not tried again, nor one whose error stays. -/
theorem run_attempt {call : LogCall α} {state : σ}
    (final : ∀ error, (perform call state).1 = .error error → error.isTransient = false)
    (delay : Nat → Nat) (failed retries clock : Nat) :
    (attempt call delay failed retries).run perform state clock =
      ((perform call state).1, (perform call state).2, clock) := by
  cases retries with
  | zero => rfl
  | succ retries =>
      simp only [attempt, run]
      cases held : (perform call state).1 with
      | ok value => rfl
      | error error => simp only [final error held]; rfl

end LogProgram

namespace Reader

/-- What is loaded instead of records that are gone is no records. -/
theorem run_reload_ne (settings : ReplicaSettings) (schema : Schema) (store : FileStore)
    (clock : Nat) (records : List LogRecord) :
    ((settings.reload schema).run (fun call (store : FileStore) => store.perform call)
      store clock).1 ≠ .ok (.records records) := by
  simp only [ReplicaSettings.reload, LogProgram.run_bind]
  split
  · rename_i document state moment required
    split
    · rename_i root later last loaded
      nofun
    · nofun
  · nofun

/-- What a replica does about the answer to its reading of the log. -/
theorem look_eq (schema : Schema) (moment : Nat) (store : FileStore) (reader : Reader)
    (final : ∀ error, (store.perform (.readFrom reader.replica.position)).1 = .error error →
      error.isTransient = false) :
    (∀ records, (store.perform (.readFrom reader.replica.position)).1 = .ok records →
      reader.look schema moment store =
        (records.filter fun record => decide (reader.replica.position ≤ record.number)).foldl
          (apply moment) reader) ∧
    ∀ error, (store.perform (.readFrom reader.replica.position)).1 = .error error →
      reader.look schema moment store = reader ∨
        (reader.look schema moment store).hasReloaded = true := by
  have tried := LogProgram.run_attempt (fun call (store : FileStore) => store.perform call) final
    reader.replica.settings.backoff 0 reader.replica.settings.maxRetries moment
  constructor
  · intro records answered
    simp only [look, ReplicaSettings.catchUp, LogProgram.run_recover, LogProgram.run_bind,
      ReplicaSettings.attempt, tried, answered]
    rfl
  · intro error answered
    simp only [look, ReplicaSettings.catchUp, LogProgram.run_recover, LogProgram.run_bind,
      ReplicaSettings.attempt, tried, answered]
    cases error with
    | compacted requested first =>
        split
        · rename_i records read
          exact absurd read (run_reload_ne _ _ _ _ records)
        · exact Or.inr rfl
        · exact Or.inl rfl
    | _ => exact Or.inl rfl

variable {schema : Schema} {store : FileStore} {log : MemoryLog} {reader : Reader}

/-- While the log retains the records from the replica's position on, the replica applies them. -/
theorem look_of_retained (mirrors : store.Mirrors log) (orderly : log.Orderly)
    (retained : log.first ≤ reader.replica.position) (moment : Nat) :
    reader.look schema moment store =
      (log.since reader.replica.position).foldl (apply moment) reader := by
  have storable : (LogCall.readFrom reader.replica.position).Storable log.head := trivial
  have answered := (mirrors.perform orderly storable).1
  rw [MemoryLog.answer, if_neg (Nat.not_lt.mpr retained)] at answered
  have looked := look_eq schema moment store reader fun error failed => by
    cases answered.symm.trans failed
  rw [looked.1 _ answered, List.filter_eq_self.mpr]
  intro record member
  exact decide_eq_true
    (MemoryLog.le_number_of_range (orderly.numbered_since retained) record member)

/-- When records are gone that the replica has not read, it takes a snapshot over, or stays where it
is. -/
theorem look_of_gone (mirrors : store.Mirrors log) (orderly : log.Orderly)
    (gone : reader.replica.position < log.first) (moment : Nat) :
    reader.look schema moment store = reader ∨
      (reader.look schema moment store).hasReloaded = true := by
  have storable : (LogCall.readFrom reader.replica.position).Storable log.head := trivial
  have answered := (mirrors.perform orderly storable).1
  rw [MemoryLog.answer, if_pos gone] at answered
  have looked := look_eq schema moment store reader fun error failed => by
    cases answered.symm.trans failed
    rfl
  exact looked.2 _ answered

theorem foldl_apply (moment : Nat) (records : List LogRecord) (reader : Reader) :
    (records.foldl (apply moment) reader).applied = reader.applied ++ records ∧
      (records.foldl (apply moment) reader).hasReloaded = reader.hasReloaded ∧
        (records.foldl (apply moment) reader).replica.position =
          (records.getLast?.map fun record => record.number + 1).getD reader.replica.position := by
  induction records generalizing reader with
  | nil => exact ⟨(List.append_nil _).symm, rfl, rfl⟩
  | cons record rest ih =>
      obtain ⟨applied, reloaded, position⟩ := ih (reader.apply moment record)
      refine ⟨applied.trans (List.append_assoc _ _ _), reloaded, position.trans ?_⟩
      cases rest with
      | nil => rfl
      | cons next more => rw [List.getLast?_cons_cons, List.getLast?_cons]; rfl

/-- Having looked, the replica is at the head, unless it was beyond that. -/
theorem position_look (mirrors : store.Mirrors log) (orderly : log.Orderly)
    (retained : log.first ≤ reader.replica.position) (moment : Nat) :
    (reader.look schema moment store).replica.position = max reader.replica.position log.head := by
  have numbered := orderly.numbered_since retained
  rw [look_of_retained mirrors orderly retained, (foldl_apply _ _ _).2.2]
  have last : ((log.since reader.replica.position).getLast?.map fun record => record.number + 1) =
      (List.range' reader.replica.position (log.head - reader.replica.position)).getLast?.map
        (· + 1) := by
    rw [← numbered, List.getLast?_map, Option.map_map]
    rfl
  rw [last]
  rcases Nat.le_total log.head reader.replica.position with behind | ahead
  · rw [Nat.sub_eq_zero_of_le behind, Nat.max_eq_left behind]
    rfl
  · rw [Nat.max_eq_right ahead]
    obtain ⟨count, head⟩ := Nat.exists_eq_add_of_le ahead
    rw [head, Nat.add_sub_cancel_left]
    cases count with
    | zero => rfl
    | succ count =>
        rw [List.range'_concat, List.getLast?_concat, Nat.one_mul]
        rfl

end Reader

/-- What a call does to the records of a log: none is dropped that is numbered from the first
retained one on, and a new one gets the number of the head. -/
theorem MemoryLog.Orderly.answer_records {log : MemoryLog} (orderly : log.Orderly) {α : Type}
    {call : LogCall α} (storable : call.Storable log.head) :
    log.first ≤ (log.answer call).2.first ∧ log.head ≤ (log.answer call).2.head ∧
      (∀ record ∈ log.records, (log.answer call).2.first ≤ record.number →
        record ∈ (log.answer call).2.records) ∧
      ∀ record ∈ call.appended (log.answer call).1, log.head ≤ record.number ∧
        record.number < (log.answer call).2.head ∧ record ∈ (log.answer call).2.records := by
  have later := (orderly.answer storable).head_eq
  have head := orderly.head_eq
  have quiet (first : (log.answer call).2.first = log.first)
      (records : (log.answer call).2.records = log.records)
      (appended : call.appended (log.answer call).1 = []) :
      log.first ≤ (log.answer call).2.first ∧ log.head ≤ (log.answer call).2.head ∧
        (∀ record ∈ log.records, (log.answer call).2.first ≤ record.number →
          record ∈ (log.answer call).2.records) ∧
        ∀ record ∈ call.appended (log.answer call).1, log.head ≤ record.number ∧
          record.number < (log.answer call).2.head ∧ record ∈ (log.answer call).2.records := by
    rw [appended, later, head, first, records]
    exact ⟨Nat.le_refl _, Nat.le_refl _, fun _ member _ => member, List.forall_mem_nil _⟩
  cases call with
  | append correlation body =>
      refine ⟨Nat.le_refl _, Nat.le_succ _,
        fun record member _ => List.mem_cons_of_mem _ member, ?_⟩
      intro record member
      cases List.mem_singleton.mp member
      exact ⟨Nat.le_refl _, Nat.lt_succ_self _, List.mem_cons_self⟩
  | discardBefore position =>
      simp only [MemoryLog.answer, List.length_take] at later ⊢
      generalize bound : max log.first (min position log.head) = cut at later ⊢
      obtain ⟨gone, kept, whole, count, first, -⟩ :=
        orderly.split (by omega : log.first ≤ cut) (by omega)
      refine ⟨by omega, by omega, ?_, List.forall_mem_nil _⟩
      intro record member retained
      have below := number_lt_of_range first (by omega : _ ≤ cut) record
      have among : record ∈ gone ++ kept := whole ▸ List.mem_reverse.mpr member
      rw [List.mem_append] at among
      have late := among.resolve_left fun early => absurd (below early) (Nat.not_lt.mpr retained)
      rw [← since_eq whole count, MemoryLog.since] at late
      exact List.mem_reverse.mp late
  | replaceState expected new =>
      apply quiet <;> simp only [MemoryLog.answer] <;> split <;> rfl
  | upgrade expected new snapshot =>
      apply quiet <;> simp only [MemoryLog.answer] <;> split <;> cases snapshot <;> rfl
  | readFrom position =>
      apply quiet <;> simp only [MemoryLog.answer] <;> split <;> rfl
  | _ => exact quiet rfl rfl rfl

namespace Restart

/-- What is so after a restart whose head is not before the position of the replica. -/
structure Sound (restart : Restart) (log : MemoryLog) : Prop where
  mirrors : restart.store.Mirrors log
  orderly : log.Orderly
  accepted : ∀ record ∈ restart.accepted, record.number < log.head ∧
    (log.first ≤ record.number → record ∈ log.records)
  inside : restart.reader.hasReloaded = false → restart.reader.replica.position ≤ log.head
  applied : restart.reader.hasReloaded = false → ∀ record ∈ restart.accepted,
    record.number < restart.reader.replica.position → record ∈ restart.reader.applied

variable {schema : Schema} {restart : Restart} {log : MemoryLog}

/-- Whoever calls the log, the numbers that it gives out are not before the replica. -/
theorem Sound.ask (sound : restart.Sound log) {α : Type} {call : LogCall α}
    (storable : call.Storable log.head) :
    (restart.after schema (.ask call)).Sound (log.answer call).2 := by
  obtain ⟨mirrors, orderly, accepted, inside, applied⟩ := sound
  obtain ⟨same, after⟩ := mirrors.perform orderly storable
  obtain ⟨first, head, kept, new⟩ := orderly.answer_records storable
  rw [← same] at new
  refine ⟨after, orderly.answer storable, ?_, ?_, ?_⟩
  · intro record member
    rcases List.mem_append.mp member with old | late
    · obtain ⟨below, there⟩ := accepted record old
      exact ⟨by omega, fun retained => kept record (there (by omega)) retained⟩
    · obtain ⟨-, below, there⟩ := new record late
      exact ⟨below, fun _ => there⟩
  · exact fun fresh => Nat.le_trans (inside fresh) head
  · intro fresh record member passed
    have position := inside fresh
    rcases List.mem_append.mp member with old | late
    · exact applied fresh record old passed
    · obtain ⟨above, -⟩ := new record late
      exact absurd passed (by change ¬ record.number < restart.reader.replica.position; omega)

/-- Where the log retains what the replica has not read, the replica catches up with all of it. -/
theorem Sound.catchesUp (sound : restart.Sound log) : restart.CatchesUp schema := by
  obtain ⟨mirrors, orderly, accepted, inside, applied⟩ := sound
  intro fresh retained moment record member
  rw [mirrors.first] at retained
  obtain ⟨below, there⟩ := accepted record member
  rw [Reader.look_of_retained mirrors orderly retained, (Reader.foldl_apply _ _ _).1,
    List.mem_append]
  rcases Nat.lt_or_ge record.number restart.reader.replica.position with passed | ahead
  · exact Or.inl (applied fresh record member passed)
  · right
    obtain ⟨gone, kept, whole, count, first, -⟩ := orderly.split retained (inside fresh)
    have among : record ∈ gone ++ kept :=
      whole ▸ List.mem_reverse.mpr (there (Nat.le_trans retained ahead))
    have early :=
      MemoryLog.number_lt_of_range first (by omega : _ ≤ restart.reader.replica.position)
    rw [MemoryLog.since_eq whole count]
    exact (List.mem_append.mp among).resolve_left fun old =>
      absurd (early record old) (Nat.not_lt.mpr ahead)

theorem Sound.look (sound : restart.Sound log) (moment : Nat) :
    (restart.after schema (.look moment)).Sound log := by
  have catchesUp : restart.CatchesUp schema := sound.catchesUp
  obtain ⟨mirrors, orderly, accepted, inside, applied⟩ := sound
  suffices rest : ((restart.reader.look schema moment restart.store).hasReloaded = false →
      (restart.reader.look schema moment restart.store).replica.position ≤ log.head) ∧
        ((restart.reader.look schema moment restart.store).hasReloaded = false →
          ∀ record ∈ restart.accepted,
            record.number < (restart.reader.look schema moment restart.store).replica.position →
              record ∈ (restart.reader.look schema moment restart.store).applied) from
    ⟨mirrors, orderly, accepted, rest.1, rest.2⟩
  rcases Nat.lt_or_ge restart.reader.replica.position log.first with gone | retained
  · have stays : restart.reader.look schema moment restart.store = restart.reader ∨
        (restart.reader.look schema moment restart.store).hasReloaded = true :=
      Reader.look_of_gone mirrors orderly gone moment
    rcases stays with same | reloaded
    · rw [same]
      exact ⟨inside, applied⟩
    · simp [reloaded]
  · have kept : (restart.reader.look schema moment restart.store).hasReloaded =
        restart.reader.hasReloaded := by
      rw [Reader.look_of_retained mirrors orderly retained, (Reader.foldl_apply _ _ _).2.1]
    rw [kept, Reader.position_look mirrors orderly retained]
    refine ⟨fun fresh => Nat.max_le.mpr ⟨inside fresh, Nat.le_refl _⟩, ?_⟩
    exact fun fresh record member _ =>
      catchesUp fresh (mirrors.first.symm ▸ retained) moment record member

theorem Sound.run (sound : restart.Sound log) {events : List RestartEvent}
    (storable : restart.Storable schema events) :
    ∃ later, (restart.run schema events).Sound later := by
  induction events generalizing restart log with
  | nil => exact ⟨log, sound⟩
  | cons event rest ih =>
      cases event with
      | ask call =>
          obtain ⟨here, later⟩ := storable
          rw [sound.mirrors.head_eq] at here
          exact ih (sound.ask here) later
      | look moment => exact ih (sound.look moment) storable

/-- A replica has applied what was accepted before a barrier that it has passed. -/
theorem Sound.flushes (sound : restart.Sound log) : restart.Flushes := by
  intro fresh barrier _ passed record member before
  have beyond : barrier.number < restart.reader.replica.position := of_decide_eq_true passed
  exact sound.applied fresh record member (Nat.lt_trans before beyond)

end Restart

/-! ### What opening finds -/

/-- A log of which only the first few records are left. -/
def MemoryLog.cutTo (log : MemoryLog) (front : List LogRecord) : MemoryLog :=
  { log with
    first := FileLog.firstRetained log.state (Frame.placed 0 front)
    records := front.reverse }

namespace MemoryLog

variable {log : MemoryLog} {front back : List LogRecord} {document : StateDocument}

theorem firstRetained_cons (orderly : log.Orderly) (covered : log.Covered)
    (stored : log.state = some document) {record : LogRecord} {rest : List LogRecord}
    (whole : log.records.reverse = (record :: rest) ++ back) :
    FileLog.firstRetained log.state (Frame.placed 0 (record :: rest)) = log.first := by
  have numbered := orderly.numbered
  have retained := (covered.known document stored).1
  have count : log.records.length = (rest ++ back).length + 1 := by
    rw [← List.length_reverse, whole]
    rfl
  rw [whole, count, List.cons_append, List.map_cons, List.range'_succ] at numbered
  have number := (List.cons.inj numbered).1
  rw [stored]
  change min document.position record.number = log.first
  omega

theorem first_cutTo_le (stored : log.state = some document) (front : List LogRecord) :
    (log.cutTo front).first ≤ document.position := by
  rw [cutTo, stored]
  cases front with
  | nil => exact Nat.le_refl _
  | cons record rest => exact Nat.min_le_left _ _

/-- What is left of an orderly log is orderly. -/
theorem Orderly.cutTo (orderly : log.Orderly) (covered : log.Covered)
    (stored : log.state = some document) (whole : log.records.reverse = front ++ back) :
    (log.cutTo front).Orderly := by
  refine ⟨orderly.available, ?_, orderly.manifest, orderly.state, ?_⟩
  · change front.reverse.reverse.map _ =
      List.range' (FileLog.firstRetained _ _) front.reverse.length
    rw [List.reverse_reverse, List.length_reverse]
    cases front with
    | nil => rfl
    | cons record rest =>
        have numbered := orderly.numbered
        have count : log.records.length = (record :: rest).length + back.length := by
          rw [← List.length_reverse, whole, List.length_append]
        rw [firstRetained_cons orderly covered stored whole]
        rw [whole, List.map_append, count, ← List.range'_append_1] at numbered
        exact (List.append_inj numbered (by rw [List.length_map, List.length_range'])).1
  · intro record member
    have early : record ∈ log.records.reverse :=
      whole ▸ List.mem_append_left _ (List.mem_reverse.mp member)
    exact orderly.records record (List.mem_reverse.mp early)

/-- What is left of a log ends where its records do, or at the snapshot's position if there are
none. -/
theorem Orderly.head_cutTo (orderly : log.Orderly) (covered : log.Covered)
    (stored : log.state = some document) (whole : log.records.reverse = front ++ back) :
    (log.cutTo front).head =
      if front = [] then document.position else log.first + front.length := by
  have head := (orderly.cutTo covered stored whole).head_eq
  rw [head]
  change FileLog.firstRetained _ _ + front.reverse.length = _
  rw [List.length_reverse]
  cases front with
  | nil =>
      rw [stored]
      rfl
  | cons record rest => rw [firstRetained_cons orderly covered stored whole, if_neg nofun]

end MemoryLog

/-! ### Recovery -/

namespace Restart

variable {store : FileStore} {log : MemoryLog}

/-- A head that is not before the snapshot's position stays so. -/
theorem sound_start (mirrors : store.Mirrors log) (orderly : log.Orderly) (replica : Replica)
    {position : Nat} (inside : position ≤ log.head) :
    (start store replica position).Sound log :=
  ⟨mirrors, orderly, nofun, fun _ => inside, fun _ => nofun⟩

/-- An update that is accepted. -/
def accepting : LogCall Nat := .append (Uuid.ofNat 0) (.update ⟨.deletion .root, .empty⟩)

/-- The barrier of a flush. -/
def flushing : LogCall Nat := .append (Uuid.ofNat 1) .barrier

theorem length_put_record (number : Nat) (correlation : Uuid) (body : RecordBody) :
    (Codec.put (⟨number, correlation, body⟩ : LogRecord)).length =
      32 + (Codec.put body).length := by
  have written : Codec.put (⟨number, correlation, body⟩ : LogRecord) =
      Binary.putWord64 number ++ (Binary.putWord64 correlation.octets.length ++
        correlation.octets ++ Codec.put body) := List.append_assoc _ _ _
  have octets : correlation.octets.length = 16 := by
    rw [Uuid.octets, List.length_reverse, Binary.length_littleEndian]
  rw [written]
  simp only [List.length_append, Node.length_putWord64, octets]
  omega

theorem storable_accepting {head : Nat} (word : head < UInt64.size) : accepting.Storable head := by
  have body : RecordBody.Storable (.update ⟨.deletion .root, .empty⟩) :=
    ⟨⟨by decide, nofun, nofun⟩, .nil⟩
  exact ⟨word, body, by rw [length_put_record]; decide +kernel⟩

theorem storable_flushing {head : Nat} (word : head < UInt64.size) : flushing.Storable head :=
  ⟨word, trivial, by rw [length_put_record]; decide +kernel⟩

/-- Where the head is before the snapshot's position, a replica that starts from the snapshot passes
an update without reading it, and the barrier of a flush after it. -/
theorem overtaken_spec (mirrors : store.Mirrors log) (orderly : log.Orderly) (schema : Schema)
    (replica : Replica) {position : Nat} (word : position < UInt64.size)
    (retained : log.first ≤ position) (behind : log.head < position) :
    (start store replica position).Storable schema [.ask accepting, .ask flushing, .look 0] ∧
      ¬ ((start store replica position).run schema [.ask accepting, .ask flushing]).CatchesUp
        schema ∧
      ¬ ((start store replica position).run schema
        [.ask accepting, .ask flushing, .look 0]).Flushes := by
  have first := storable_accepting (Nat.lt_trans behind word)
  obtain ⟨answered, mirrors₁⟩ := mirrors.perform orderly first
  have orderly₁ := orderly.answer first
  have head₁ : (log.answer accepting).2.head = log.head + 1 := rfl
  have second : flushing.Storable (log.answer accepting).2.head :=
    storable_flushing (Nat.lt_of_le_of_lt behind word)
  obtain ⟨answered₂, mirrors₂⟩ := mirrors₁.perform orderly₁ second
  have orderly₂ := orderly₁.answer second
  have kept : ((log.answer accepting).2.answer flushing).2.first ≤ position := retained
  -- Both records are accepted, with the numbers from the head on.
  generalize after : (start store replica position).run schema [.ask accepting, .ask flushing] = now
  have accepted : now.accepted =
      [⟨log.head, Uuid.ofNat 0, .update ⟨.deletion .root, .empty⟩⟩,
        ⟨log.head + 1, Uuid.ofNat 1, .barrier⟩] := by
    rw [← after]
    simp only [run, List.foldl_cons, List.foldl_nil, Restart.after, start, answered, answered₂]
    rfl
  have reader : now.reader = .startAt replica position := by
    rw [← after]
    rfl
  have mirrors' : now.store.Mirrors ((log.answer accepting).2.answer flushing).2 := by
    rw [← after]
    exact mirrors₂
  have behind₂ : now.reader.replica.position = position := by
    rw [reader]
    rfl
  -- What the replica reads begins at its position, behind the update.
  have unread : ∀ record ∈ (now.reader.look schema 0 now.store).applied,
      position ≤ record.number := by
    rw [Reader.look_of_retained mirrors' orderly₂ (behind₂ ▸ kept), (Reader.foldl_apply _ _ _).1,
      behind₂, reader]
    exact MemoryLog.le_number_of_range (orderly₂.numbered_since kept)
  have start₁ : (start store replica position).store.log.head = log.head := mirrors.head_eq
  refine ⟨⟨?_, ?_, trivial⟩, ?_, ?_⟩
  · rw [start₁]
    exact first
  · change flushing.Storable (store.perform accepting).2.log.head
    rw [mirrors₁.head_eq]
    exact second
  · intro catchesUp
    have applied := catchesUp (reader ▸ rfl) (by rw [mirrors'.first, behind₂]; exact kept) 0 _
      (accepted ▸ List.mem_cons_self)
    exact absurd (unread _ applied) (Nat.not_le.mpr behind)
  · have looked : (start store replica position).run schema
        [.ask accepting, .ask flushing, .look 0] = now.after schema (.look 0) := by
      rw [← after]
      rfl
    rw [looked]
    intro flushes
    have fresh : (now.reader.look schema 0 now.store).hasReloaded = false := by
      rw [Reader.look_of_retained mirrors' orderly₂ (behind₂ ▸ kept),
        (Reader.foldl_apply _ _ _).2.1,
        reader]
      rfl
    have passed : (now.reader.look schema 0 now.store).replica.hasPassed (log.head + 1) = true := by
      have head : ((log.answer accepting).2.answer flushing).2.head = log.head + 2 := rfl
      rw [Replica.hasPassed, Reader.position_look mirrors' orderly₂ (behind₂ ▸ kept), head]
      exact decide_eq_true (by omega)
    have applied := flushes fresh ⟨log.head + 1, Uuid.ofNat 1, .barrier⟩ (accepted ▸ by simp) passed
      ⟨log.head, Uuid.ofNat 0, .update ⟨.deletion .root, .empty⟩⟩ (accepted ▸ by simp)
      (Nat.lt_succ_self _)
    exact absurd (unread _ applied) (Nat.not_le.mpr behind)

end Restart

namespace FileStore

variable {store : FileStore} {log : MemoryLog} {document : StateDocument}

/-- A log whose segment was damaged opens as what is left of it. -/
theorem Mirrors.recover (mirrors : store.Mirrors log) (orderly : log.Orderly)
    (covered : log.Covered) (stored : log.state = some document) {front back : List LogRecord}
    (whole : log.records.reverse = front ++ back) {rest : Bytes}
    (torn : Frame.first? 0 rest = none) {crashed : Directory}
    (crash : store.directory.change FileLog.segmentName (fun _ => Frame.ofRecords front ++ rest) =
      .ok crashed) (config : FileLogConfig) :
    ∃ restarted, opened config crashed = .ok restarted ∧ restarted.Mirrors (log.cutTo front) := by
  let change : Bytes → Bytes := fun _ => Frame.ofRecords front ++ rest
  have others {name : String} (different : name ≠ FileLog.segmentName) :=
    mirrors.sound.file?_changeOpen_of_ne mirrors.segment different change
  cases crash.symm.trans (Directory.change_eq mirrors.segment change)
  have left : (log.cutTo front).records.reverse = front := List.reverse_reverse front
  have sound := mirrors.sound.changeOpen store.log.segment change
  have segment : (store.directory.changeOpen store.log.segment change).file? FileLog.segmentName =
      some (store.log.segment, Frame.ofRecords (log.cutTo front).records.reverse ++ rest) := by
    rw [left]
    exact Directory.file?_changeOpen_self mirrors.segment change
  have manifest := mirrors.manifest
  have state := mirrors.state
  rw [← others (by decide)] at manifest state
  apply mirrors_recovered config (orderly.cutTo covered stored whole) sound segment torn manifest
    state
  rw [left]
  rfl

/-- Let a log be put through any run that it may be put through, let a snapshot be stored then, and
let a crash damage the segment. The log can be opened again. Its head is not before the snapshot's
position exactly if no record is left or the records that are left reach up to that position; and
exactly then a replica that starts from the snapshot applies, whatever happens after that, all
records that are accepted, and a flush of it does not return before it has applied those before. -/
theorem recovered_tfae {directory crashed : Directory} {config : FileLogConfig}
    {events : List StoreEvent} {start store : FileStore} {answers : List Answered}
    {document : StateDocument} {bytes : Bytes} (empty : directory.entries = [])
    (disciplined : MemoryLog.empty.Disciplined events)
    (opens : opened config directory = .ok start) (ran : start.run events = .ok (answers, store))
    (stored : FileLog.readState store.directory = .ok (some document))
    (damaged : Frame.Damaged (store.log.records.reverse.map Prod.snd) bytes)
    (crash : store.directory.change FileLog.segmentName (fun _ => bytes) = .ok crashed)
    (again : FileLogConfig) (schema : Schema) (replica : Replica) :
    ∃ restarted, opened again crashed = .ok restarted ∧
      List.TFAE [
        document.position ≤ restarted.log.head,
        (Frame.scan bytes).records = [] ∨
          document.position ≤ store.log.first + (Frame.scan bytes).records.length,
        ∀ later, (Restart.start restarted replica document.position).Storable schema later →
          ((Restart.start restarted replica document.position).run schema later).CatchesUp schema,
        ∀ later, (Restart.start restarted replica document.position).Storable schema later →
          ((Restart.start restarted replica document.position).run schema later).Flushes] := by
  obtain ⟨first, begins, fresh⟩ := mirrors_empty config empty
  cases opens.symm.trans begins
  obtain ⟨last, ended, mirrors, orderly, covered⟩ :=
    fresh.run MemoryLog.orderly_empty MemoryLog.covered_empty disciplined
  cases ran.symm.trans ended
  generalize events.foldl MemoryLog.after .empty = log at mirrors orderly covered
  have state : log.state = some document := Except.ok.inj
    ((FileLog.readState_eq mirrors.sound mirrors.state orderly.state).symm.trans stored)
  have storable : ∀ record ∈ log.records.reverse, record.Storable := fun record member =>
    orderly.records record (List.mem_reverse.mp member)
  rw [mirrors.records, List.reverse_reverse, Frame.map_snd_placed] at damaged
  obtain ⟨front, back, rest, whole, rfl, torn⟩ := damaged.spec storable
  obtain ⟨restarted, opens', mirrors'⟩ :=
    mirrors.recover orderly covered state whole torn crash again
  have orderly' := orderly.cutTo covered state whole
  have head := orderly.head_cutTo covered state whole
  have scanned := Frame.scan_ofRecords
    (fun record member => storable record (whole ▸ List.mem_append_left _ member)) torn
  have overtaken (behind : (log.cutTo front).head < document.position) :=
    Restart.overtaken_spec mirrors' orderly' schema replica (orderly.state document state).position
      (MemoryLog.first_cutTo_le state front) behind
  refine ⟨restarted, opens', ?_⟩
  rw [scanned, mirrors'.head_eq, mirrors.first]
  tfae_have 1 ↔ 2 := by
    rw [head, Frame.length_placed]
    cases front with
    | nil => exact ⟨fun _ => Or.inl rfl, fun _ => Nat.le_refl _⟩
    | cons record rest =>
        rw [if_neg nofun]
        exact ⟨Or.inr, fun left => left.resolve_left nofun⟩
  tfae_have 1 → 3 := by
    intro inside later calls
    obtain ⟨_, sound⟩ := (Restart.sound_start mirrors' orderly' replica inside).run calls
    exact sound.catchesUp
  tfae_have 1 → 4 := by
    intro inside later calls
    obtain ⟨_, sound⟩ := (Restart.sound_start mirrors' orderly' replica inside).run calls
    exact sound.flushes
  tfae_have 3 → 1 := by
    intro catchesUp
    refine Nat.le_of_not_lt fun behind => ?_
    obtain ⟨⟨accepting, flushing, -⟩, lost, -⟩ := overtaken behind
    exact lost (catchesUp _ ⟨accepting, flushing, trivial⟩)
  tfae_have 4 → 1 := by
    intro flushes
    refine Nat.le_of_not_lt fun behind => ?_
    obtain ⟨calls, -, lost⟩ := overtaken behind
    exact lost (flushes _ calls)
  tfae_finish

end FileStore

/-! ### In the sample -/

namespace Sample

/-- The sample's tree after three records. -/
def snapshot : StateDocument := .ofNode tree .json 1 3

/-- Three records, and a snapshot of the tree after them. -/
def ahead : List StoreEvent :=
  [.ask (.append (Uuid.ofNat 0) .barrier), .ask (.append (Uuid.ofNat 1) .barrier),
    .ask (.append (Uuid.ofNat 2) .barrier), .ask (.replaceState none snapshot)]

/-- The log in memory then. -/
def full : MemoryLog := ahead.foldl MemoryLog.after .empty

def earliest : LogRecord := ⟨0, Uuid.ofNat 0, .barrier⟩

def middle : LogRecord := ⟨1, Uuid.ofNat 1, .barrier⟩

def left : List LogRecord := [earliest, middle]

def lost : LogRecord := ⟨2, Uuid.ofNat 2, .barrier⟩

/-- The segment without its last octet. -/
def cutSegment : Bytes := (Frame.ofRecords (left ++ [lost])).take 131

def follower : Replica := .new 0 0 .standard .clear

theorem disciplined_ahead : MemoryLog.empty.Disciplined ahead :=
  ⟨⟨by decide, trivial, by decide +kernel⟩, trivial,
    ⟨by decide, trivial, by decide +kernel⟩, trivial,
    ⟨by decide, trivial, by decide +kernel⟩, trivial,
    ⟨by decide, by decide, by decide +kernel⟩, fun _ => ⟨by decide, by decide⟩, trivial⟩

theorem retained_full : full.records.reverse = left ++ [lost] := rfl

theorem stored_full : full.state = some snapshot := rfl

/-- The segment with an octet of the second payload altered, and the third frame intact. -/
def alteredSegment : Bytes :=
  Frame.ofRecords [earliest] ++
    (Frame.withPayload middle ((Codec.put middle).set 0 7) ++ Frame.ofRecords [lost])

theorem damaged_altered : Frame.Damaged (left ++ [lost]) alteredSegment := by
  have short : (Codec.put middle).length < UInt32.size := by decide +kernel
  have told : Crc32.checksum ((Codec.put middle).set 0 7) ≠ Crc32.checksum (Codec.put middle) := by
    decide +kernel
  have damaged : Frame.Damaged ([earliest] ++ middle :: [lost]) alteredSegment :=
    .payload short List.length_set told
  exact damaged

/-- The log in a directory, and the directory with other octets in its segment. -/
theorem ran_ahead (bytes : Bytes) : ∃ start store crashed,
    FileStore.opened .standard .absent = .ok start ∧
      start.run ahead = .ok (MemoryLog.empty.answers ahead, store) ∧ store.Mirrors full ∧
        full.Orderly ∧ full.Covered ∧
          store.directory.change FileLog.segmentName (fun _ => bytes) = .ok crashed := by
  have empty : Directory.absent.entries = [] := rfl
  obtain ⟨start, opens, begins⟩ := FileStore.mirrors_empty .standard empty
  obtain ⟨store, ran, mirrors, orderly, covered⟩ :=
    begins.run MemoryLog.orderly_empty MemoryLog.covered_empty disciplined_ahead
  exact ⟨start, store, _, opens, ran, mirrors, orderly, covered,
    Directory.change_eq mirrors.segment _⟩

/-- The log in a directory opens with these octets in its segment, which are what a crash may leave
of it, and two of the ways to say that it is sound agree. -/
def Recovers (bytes : Bytes) : Prop :=
  ∃ start store crashed restarted, FileStore.opened .standard .absent = .ok start ∧
    MemoryLog.empty.Disciplined ahead ∧
      start.run ahead = .ok (MemoryLog.empty.answers ahead, store) ∧
        FileLog.readState store.directory = .ok (some snapshot) ∧
          Frame.Damaged (store.log.records.reverse.map Prod.snd) bytes ∧
            store.directory.change FileLog.segmentName (fun _ => bytes) = .ok crashed ∧
              FileStore.opened .durable crashed = .ok restarted ∧
                (snapshot.position ≤ restarted.log.head ↔
                  ∀ later, (Restart.start restarted follower snapshot.position).Storable schema
                      later →
                    ((Restart.start restarted follower snapshot.position).run schema
                      later).CatchesUp schema)

/-- The log recovers with its segment cut, and with an octet of it altered. -/
theorem cut_recovered_tfae : Recovers cutSegment ∧ Recovers alteredSegment := by
  have recovers (bytes : Bytes) (damaged : Frame.Damaged (left ++ [lost]) bytes) :
      Recovers bytes := by
    obtain ⟨start, store, crashed, opens, ran, mirrors, orderly, -, crash⟩ := ran_ahead bytes
    have stored : FileLog.readState store.directory = .ok (some snapshot) :=
      FileLog.readState_eq mirrors.sound mirrors.state orderly.state
    have whole : store.log.records.reverse.map Prod.snd = left ++ [lost] := by
      rw [mirrors.records, List.reverse_reverse, Frame.map_snd_placed, retained_full]
    rw [← whole] at damaged
    obtain ⟨restarted, opened, same⟩ := FileStore.recovered_tfae rfl disciplined_ahead opens ran
      stored damaged crash .durable schema follower
    exact ⟨start, store, crashed, restarted, opens, disciplined_ahead, ran, stored, damaged, crash,
      opened, same.out 0 2⟩
  exact ⟨recovers _ (.cut 131), recovers _ damaged_altered⟩

/-- The snapshot is of position three, and the log goes on at two. The update that gets this number
is not read by a replica that starts from the snapshot, and the flush after it returns. -/
theorem cut_behind_snapshot :
    ∃ start store crashed restarted, FileStore.opened .standard .absent = .ok start ∧
      start.run ahead = .ok (MemoryLog.empty.answers ahead, store) ∧
        FileLog.readState store.directory = .ok (some snapshot) ∧
          store.directory.change FileLog.segmentName (fun _ => cutSegment) = .ok crashed ∧
            FileStore.opened .durable crashed = .ok restarted ∧
              restarted.log.head < snapshot.position ∧
                (Restart.start restarted follower snapshot.position).Storable schema
                    [.ask Restart.accepting, .ask Restart.flushing, .look 0] ∧
                  ¬ ((Restart.start restarted follower snapshot.position).run schema
                    [.ask Restart.accepting, .ask Restart.flushing]).CatchesUp schema ∧
                  ¬ ((Restart.start restarted follower snapshot.position).run schema
                    [.ask Restart.accepting, .ask Restart.flushing, .look 0]).Flushes := by
  obtain ⟨start, store, crashed, opens, ran, mirrors, orderly, covered, crash⟩ :=
    ran_ahead cutSegment
  have stored : FileLog.readState store.directory = .ok (some snapshot) :=
    FileLog.readState_eq mirrors.sound mirrors.state orderly.state
  have segment : cutSegment = Frame.ofRecords left ++ (Frame.ofRecord lost).take 43 := by
    decide +kernel
  have torn : Frame.first? 0 ((Frame.ofRecord lost).take 43) = none :=
    Frame.first?_take (by decide +kernel) (by decide +kernel) 0
  have crash' := crash
  rw [segment] at crash'
  obtain ⟨restarted, opened, mirrors'⟩ :=
    mirrors.recover orderly covered stored_full retained_full torn crash' .durable
  have head := orderly.head_cutTo covered stored_full retained_full
  have behind : (full.cutTo left).head < snapshot.position := by
    rw [head]
    decide
  obtain ⟨storable, unread, returned⟩ := Restart.overtaken_spec mirrors'
    (orderly.cutTo covered stored_full retained_full) schema follower (by decide)
    (MemoryLog.first_cutTo_le stored_full left) behind
  rw [← mirrors'.head_eq] at behind
  exact ⟨start, store, crashed, restarted, opens, ran, stored, crash, opened, behind, storable,
    unread, returned⟩

end Sample

end StateTree
