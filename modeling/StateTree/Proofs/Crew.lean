/-
Module: StateTree.Proofs.Crew
Purpose: Any number of threads at the queue of a site's work. Threads add work, start the queue and
  wait for it at any moment, and whoever becomes the drainer takes one item after the other; each
  section under the queue's lock is one step. Work that can be done always has its one drainer, the
  counts of the queue tell where each item is, and a wait ends only when all that had been added
  before it is done.
-/
import StateTree.Site.WorkQueue

namespace StateTree

variable {α : Type}

/-- What a thread is at. -/
inductive Duty (α : Type) where
  /-- Something of its own. -/
  | free
  /-- It is the drainer, and has not taken an item yet. -/
  | arriving
  /-- It is the drainer, and processes an item. -/
  | holding (item : α)
  /-- It waits for the first `target` items to be done; these are what had been added when it was
  asked to. -/
  | waiting (target : Nat) (asked : List α)

/-- A wait for the work of a queue, which has returned. -/
structure Wait (α : Type) where
  /-- What had been added when it was called. -/
  asked : List α
  /-- What was done when it returned. -/
  done : List α
  /-- Whether the drainer called it. -/
  isOwn : Bool
  /-- Whether the queue was started when it returned. -/
  isStarted : Bool

/-- Threads at a queue, with all that was added and all that is done. -/
structure Crew (α : Type) where
  queue : WorkQueue α
  threads : List (Duty α)
  added : List α
  done : List α
  waits : List (Wait α)

/-- What a thread does next. -/
inductive CrewAction (α : Type) where
  | enqueue (item : α)
  | start
  | wait
  /-- The thread goes on with what it is at: the drainer takes an item, or is done with one and
  takes the next; and a wait looks at the queue once more. -/
  | proceed

namespace Duty

def isDraining : Duty α → Bool
  | .arriving | .holding _ => true
  | _ => false

/-- Whether the thread may make a call. The drainer may while it processes an item. -/
def mayCall : Duty α → Bool
  | .free | .holding _ => true
  | _ => false

/-- The item in the thread's hands. -/
def items : Duty α → List α
  | .holding item => [item]
  | _ => []

end Duty

namespace Crew

/-- Threads that have done nothing, at a queue that nothing was added to. -/
def new (threads : Nat) : Crew α := ⟨.empty, List.replicate threads .free, [], [], []⟩

/-- A section of a thread in which it may have become the drainer. -/
def claim (crew : Crew α) (number : Nat) (claimed : Bool × WorkQueue α) : Crew α :=
  { crew with
    queue := claimed.2
    threads := if claimed.1 then crew.threads.set number .arriving else crew.threads }

/-- A section of the drainer in which it has taken the next item, or has given up draining. -/
def hold (crew : Crew α) (number : Nat) (taken : Option α × WorkQueue α) : Crew α :=
  { crew with
    queue := taken.2
    threads := crew.threads.set number ((taken.1.map Duty.holding).getD .free) }

/-- A wait returns. -/
def conclude (crew : Crew α) (asked : List α) (isOwn : Bool) : Crew α :=
  { crew with waits := crew.waits ++ [⟨asked, crew.done, isOwn, crew.queue.isStarted⟩] }

/-- A thread looks whether its wait is over, and goes on waiting or returns. -/
def look (crew : Crew α) (number target : Nat) (asked : List α) : Crew α :=
  if crew.queue.hasReached target then
    { crew with threads := crew.threads.set number .free }.conclude asked false
  else { crew with threads := crew.threads.set number (.waiting target asked) }

/-- What comes of an action of a thread that is at something. -/
def act (crew : Crew α) (number : Nat) (duty : Duty α) : CrewAction α → Crew α
  | .enqueue item =>
      if duty.mayCall then
        { crew with added := crew.added ++ [item] }.claim number (crew.queue.enqueue item)
      else crew
  | .start => if duty.mayCall then crew.claim number crew.queue.start else crew
  | .wait =>
      match duty with
      | .free => crew.look number crew.queue.enqueued crew.added
      | .holding _ => crew.conclude crew.added true
      | _ => crew
  | .proceed =>
      match duty with
      | .free => crew
      | .arriving => crew.hold number crew.queue.take
      | .holding item =>
          { crew with done := crew.done ++ [item] }.hold number crew.queue.finish
      | .waiting target asked => crew.look number target asked

/-- The threads after an action of the one that has a number. -/
def after (crew : Crew α) (event : Nat × CrewAction α) : Crew α :=
  match crew.threads[event.1]? with
  | some duty => crew.act event.1 duty event.2
  | none => crew

/-- The threads after actions, which may come in any order. -/
def run (crew : Crew α) (events : List (Nat × CrewAction α)) : Crew α := events.foldl after crew

/-- The number of drainers. -/
def drainers (crew : Crew α) : Nat := crew.threads.countP Duty.isDraining

/-- The items that are in progress. -/
def inHand (crew : Crew α) : List α := crew.threads.flatMap Duty.items

/-- What holds of the threads and their queue at every moment. -/
structure Staffed (crew : Crew α) : Prop where
  accounted : crew.added = crew.done ++ (crew.inHand ++ crew.queue.pending)
  enqueued : crew.queue.enqueued = crew.added.length
  completed : crew.queue.completed = crew.done.length
  drained : crew.drainers = crew.queue.isDraining.toNat
  attended : crew.queue.isStarted = true → crew.queue.isDraining = false → crew.queue.pending = []
  waiting : ∀ target asked, .waiting target asked ∈ crew.threads →
    asked <+: crew.added ∧ target = asked.length
  returned : ∀ wait ∈ crew.waits, wait.isOwn = false → wait.isStarted = true →
    wait.asked <+: wait.done

/-! ### A thread among the others -/

section Threads

variable {threads : List (Duty α)} {number : Nat} {duty : Duty α}

/-- Where no thread drains, no item is in progress. -/
theorem items_of_none (idle : threads.countP Duty.isDraining = 0) :
    threads.flatMap Duty.items = [] := by
  rw [List.countP_eq_zero] at idle
  refine List.flatMap_eq_nil_iff.mpr fun duty member => ?_
  cases duty with
  | holding item => exact absurd rfl (idle _ member)
  | _ => rfl

/-- A thread has one item in its hands at most, and none unless it drains. -/
theorem length_items_le (threads : List (Duty α)) :
    (threads.flatMap Duty.items).length ≤ threads.countP Duty.isDraining := by
  induction threads with
  | nil => exact Nat.le_refl 0
  | cons duty rest ih =>
      have one : duty.items.length ≤ if duty.isDraining then 1 else 0 := by
        cases duty <;> simp [Duty.items, Duty.isDraining]
      rw [List.flatMap_cons, List.length_append, List.countP_cons, Nat.add_comm]
      exact Nat.add_le_add ih one

/-- The threads before the one of a number, and those behind it. -/
theorem exists_around (found : threads[number]? = some duty) :
    ∃ front rest, threads = front ++ duty :: rest ∧
      ∀ other, threads.set number other = front ++ other :: rest := by
  obtain ⟨inside, rfl⟩ := List.getElem?_eq_some_iff.mp found
  refine ⟨threads.take number, threads.drop (number + 1), ?_, fun other => ?_⟩
  · rw [← List.drop_eq_getElem_cons inside, List.take_append_drop]
  · exact List.set_eq_take_append_cons_drop.trans (if_pos inside)

/-- A thread that does not drain goes on to something else that is no draining. -/
theorem set_of_idle (found : threads[number]? = some duty) {other : Duty α}
    (before : duty.isDraining = false) (after : other.isDraining = false) :
    (threads.set number other).countP Duty.isDraining = threads.countP Duty.isDraining ∧
      (threads.set number other).flatMap Duty.items = threads.flatMap Duty.items := by
  obtain ⟨front, rest, rfl, changed⟩ := exists_around found
  have none {duty : Duty α} (idle : duty.isDraining = false) : duty.items = [] := by
    cases duty with
    | holding item => cases idle
    | _ => rfl
  simp [changed, before, after, none before, none after]

/-- Where at most the thread itself drains, only what it is at counts. -/
theorem set_of_sole (found : threads[number]? = some duty)
    (sole : threads.countP Duty.isDraining ≤ duty.isDraining.toNat) (other : Duty α) :
    (threads.set number other).countP Duty.isDraining = other.isDraining.toNat ∧
      threads.flatMap Duty.items = duty.items ∧
      (threads.set number other).flatMap Duty.items = other.items := by
  obtain ⟨front, rest, rfl, changed⟩ := exists_around found
  have count (duty : Duty α) : (front ++ duty :: rest).countP Duty.isDraining =
      front.countP Duty.isDraining + rest.countP Duty.isDraining + duty.isDraining.toNat := by
    rw [List.countP_append, List.countP_cons, ← Nat.add_assoc]
    cases duty.isDraining <;> rfl
  rw [count] at sole
  have before : front.countP Duty.isDraining = 0 := by omega
  have behind : rest.countP Duty.isDraining = 0 := by omega
  rw [changed, count, before, behind]
  simp [items_of_none before, items_of_none behind]

/-- A thread that did not wait before is the only one that may wait now and did not. -/
theorem waiting_of_set {other : Duty α} {target : Nat} {asked : List α}
    (member : Duty.waiting target asked ∈ threads.set number other) :
    .waiting target asked ∈ threads ∨ other = .waiting target asked :=
  (List.mem_or_eq_of_mem_set member).imp id Eq.symm

end Threads

/-! ### Every step keeps the queue staffed -/

theorem staffed_new (threads : Nat) : (new threads : Crew α).Staffed := by
  have idle : (List.replicate threads (Duty.free : Duty α)).countP Duty.isDraining = 0 := by
    simp [List.countP_replicate, Duty.isDraining]
  refine ⟨?_, rfl, rfl, idle, fun started => ?_, fun target asked member => ?_, nofun⟩
  · rw [inHand, new, items_of_none idle]
    rfl
  · cases started
  · cases List.eq_of_mem_replicate member

namespace Staffed

variable {crew : Crew α} (staffed : crew.Staffed)

include staffed

/-- A thread that drains is the only one. -/
theorem sole {number : Nat} {duty : Duty α} (found : crew.threads[number]? = some duty)
    (draining : duty.isDraining = true) :
    crew.queue.isDraining = true ∧
      crew.threads.countP Duty.isDraining ≤ duty.isDraining.toNat := by
  have some : 0 < crew.threads.countP Duty.isDraining :=
    List.countP_pos_iff.mpr ⟨duty, List.mem_of_getElem? found, draining⟩
  have all : crew.threads.countP Duty.isDraining = crew.queue.isDraining.toNat := staffed.drained
  cases drains : crew.queue.isDraining with
  | false =>
      rw [drains] at all
      exact absurd all (Nat.ne_of_gt some)
  | true =>
      rw [drains] at all
      rw [draining, all]
      exact ⟨rfl, Nat.le_refl _⟩

/-- A thread adds work or starts the queue. It becomes the drainer where there is work that can be
done and nobody is at it. -/
theorem claim {number : Nat} {duty : Duty α} (found : crew.threads[number]? = some duty)
    (queue : WorkQueue α) (items : List α) (draining : queue.isDraining = crew.queue.isDraining)
    (pending : queue.pending = crew.queue.pending ++ items)
    (enqueued : queue.enqueued = crew.queue.enqueued + items.length)
    (completed : queue.completed = crew.queue.completed) :
    ({ crew with added := crew.added ++ items }.claim number queue.claim).Staffed := by
  have waiting {target : Nat} {asked : List α} (member : .waiting target asked ∈ crew.threads) :
      asked <+: crew.added ++ items ∧ target = asked.length :=
    ⟨(staffed.waiting _ _ member).1.trans (List.prefix_append ..), (staffed.waiting _ _ member).2⟩
  have accounted : crew.added ++ items = crew.done ++ (crew.inHand ++ queue.pending) := by
    rw [staffed.accounted, pending]
    simp only [List.append_assoc]
  unfold WorkQueue.claim
  split
  · rename_i free
    simp only [Bool.and_eq_true, Bool.not_eq_eq_eq_not, Bool.not_true, draining] at free
    -- nobody drains yet, so the thread is the only one to count
    have none : crew.threads.countP Duty.isDraining = 0 :=
      staffed.drained.trans (by rw [free.1.2]; rfl)
    obtain ⟨count, before, after⟩ := set_of_sole found (none ▸ Nat.zero_le _) .arriving
    refine ⟨?_, ?_, completed.trans staffed.completed, count, fun _ => nofun,
      fun target asked member => ?_, staffed.returned⟩
    · rw [inHand, items_of_none none] at accounted
      simpa only [Crew.claim, inHand, if_true, after, Duty.items] using accounted
    · simp [Crew.claim, enqueued, staffed.enqueued]
    · exact waiting ((waiting_of_set member).resolve_right nofun)
  · rename_i busy
    refine ⟨accounted, ?_, completed.trans staffed.completed,
      staffed.drained.trans (congrArg _ draining.symm), fun started idle => ?_,
      fun target asked member => waiting member, staffed.returned⟩
    · simp [Crew.claim, enqueued, staffed.enqueued]
    · change queue.isStarted = true at started
      change queue.isDraining = false at idle
      change queue.pending = []
      simpa [started, idle] using busy

theorem enqueue {number : Nat} {duty : Duty α} (found : crew.threads[number]? = some duty)
    (item : α) :
    ({ crew with added := crew.added ++ [item] }.claim number
      (crew.queue.enqueue item)).Staffed :=
  staffed.claim found
    { crew.queue with
      pending := crew.queue.pending ++ [item]
      enqueued := crew.queue.enqueued + 1 }
    [item] rfl rfl rfl rfl

theorem start {number : Nat} {duty : Duty α} (found : crew.threads[number]? = some duty) :
    (crew.claim number crew.queue.start).Staffed := by
  have staffed := staffed.claim found { crew.queue with isStarted := true } [] rfl
    (List.append_nil _).symm rfl rfl
  rw [List.append_nil] at staffed
  exact staffed

/-- The drainer, who has done some items, takes the next one, or gives up draining when none is
left. -/
theorem hold {number : Nat} {duty : Duty α} (found : crew.threads[number]? = some duty)
    (draining : duty.isDraining = true) (queue : WorkQueue α)
    (same : queue.isDraining = crew.queue.isDraining) (pending : queue.pending = crew.queue.pending)
    (enqueued : queue.enqueued = crew.queue.enqueued)
    (completed : queue.completed = crew.queue.completed + duty.items.length) :
    ({ crew with done := crew.done ++ duty.items }.hold number queue.take).Staffed := by
  obtain ⟨drains, sole⟩ := staffed.sole found draining
  have others := set_of_sole found sole
  have accounted := staffed.accounted
  rw [inHand, (others duty).2.1, ← List.append_assoc, ← pending] at accounted
  have done : queue.completed = (crew.done ++ duty.items).length := by
    rw [completed, staffed.completed, List.length_append]
  have waiting {target : Nat} {asked : List α} {other : Duty α}
      (different : other ≠ .waiting target asked)
      (member : .waiting target asked ∈ crew.threads.set number other) :
      asked <+: crew.added ∧ target = asked.length :=
    staffed.waiting _ _ ((waiting_of_set member).resolve_right different)
  unfold WorkQueue.take
  cases waits : queue.pending with
  | nil =>
      rw [waits] at accounted
      refine ⟨?_, enqueued.trans staffed.enqueued, done, (others .free).1, fun _ _ => rfl,
        fun target asked => waiting nofun, staffed.returned⟩
      simpa [Crew.hold, inHand, (others .free).2.2, waits, Duty.items] using accounted
  | cons item rest =>
      rw [waits] at accounted
      refine ⟨?_, enqueued.trans staffed.enqueued, done, ?_, fun _ idle => ?_,
        fun target asked => waiting nofun, staffed.returned⟩
      · simpa [Crew.hold, inHand, (others (.holding item)).2.2, Duty.items] using accounted
      · refine (others (.holding item)).1.trans ?_
        simp [Crew.hold, same, drains, Duty.isDraining]
      · simp [Crew.hold, same, drains] at idle

theorem take {number : Nat} (found : crew.threads[number]? = some .arriving) :
    (crew.hold number crew.queue.take).Staffed := by
  have staffed := staffed.hold found rfl crew.queue rfl rfl rfl rfl
  simp only [Duty.items, List.append_nil] at staffed
  exact staffed

theorem finish {number : Nat} {item : α} (found : crew.threads[number]? = some (.holding item)) :
    ({ crew with done := crew.done ++ [item] }.hold number crew.queue.finish).Staffed :=
  staffed.hold found rfl { crew.queue with completed := crew.queue.completed + 1 } rfl rfl rfl rfl

/-- A thread that does not drain goes on to something else that is no draining. -/
theorem turn {number : Nat} {duty : Duty α} (found : crew.threads[number]? = some duty)
    (idle : duty.isDraining = false) (other : Duty α) (after : other.isDraining = false)
    (waits : ∀ target asked, other = .waiting target asked →
      asked <+: crew.added ∧ target = asked.length) :
    Staffed { crew with threads := crew.threads.set number other } := by
  obtain ⟨count, hands⟩ := set_of_idle found idle after
  refine ⟨?_, staffed.enqueued, staffed.completed, count.trans staffed.drained, staffed.attended,
    fun target asked member => ?_, staffed.returned⟩
  · rw [inHand, hands]
    exact staffed.accounted
  · exact (waiting_of_set member).elim (staffed.waiting target asked) (waits target asked)

/-- A wait returns when all is done that was asked for. -/
theorem conclude {asked : List α} {isOwn : Bool}
    (reached : isOwn = false → crew.queue.isStarted = true → asked <+: crew.done) :
    (crew.conclude asked isOwn).Staffed := by
  refine ⟨staffed.accounted, staffed.enqueued, staffed.completed, staffed.drained,
    staffed.attended, staffed.waiting, fun wait member => ?_⟩
  rcases List.mem_append.mp member with before | last
  · exact staffed.returned wait before
  · rw [List.mem_singleton.mp last]
    exact reached

/-- What had been added is done when as many items are: items are done in their order. -/
theorem done_of_hasReached {asked : List α} (added : asked <+: crew.added)
    (reached : crew.queue.hasReached asked.length = true)
    (started : crew.queue.isStarted = true) : asked <+: crew.done := by
  have enough : asked.length ≤ crew.queue.completed := by
    simpa [WorkQueue.hasReached, started] using reached
  rw [staffed.completed] at enough
  rw [staffed.accounted] at added
  exact List.prefix_of_prefix_length_le added (List.prefix_append ..) enough

theorem look {number : Nat} {duty : Duty α} (found : crew.threads[number]? = some duty)
    (idle : duty.isDraining = false) {asked : List α} (added : asked <+: crew.added) :
    (crew.look number asked.length asked).Staffed := by
  unfold Crew.look
  split
  · rename_i reached
    refine (staffed.turn found idle .free rfl fun _ _ => nofun).conclude fun _ started => ?_
    exact staffed.done_of_hasReached added reached started
  · refine staffed.turn found idle _ rfl fun target asked same => ?_
    cases same
    exact ⟨added, rfl⟩

/-- Whatever a thread does next keeps the queue staffed. -/
theorem after (event : Nat × CrewAction α) : (crew.after event).Staffed := by
  obtain ⟨number, action⟩ := event
  unfold Crew.after
  split
  case h_2 => exact staffed
  rename_i duty found
  cases action with
  | enqueue item =>
      simp only [Crew.act]
      split
      · exact staffed.enqueue found item
      · exact staffed
  | start =>
      simp only [Crew.act]
      split
      · exact staffed.start found
      · exact staffed
  | wait =>
      cases duty with
      | free =>
          simp only [Crew.act, staffed.enqueued]
          exact staffed.look found rfl (List.prefix_refl _)
      | arriving => exact staffed
      | holding item => exact staffed.conclude nofun
      | waiting target asked => exact staffed
  | proceed =>
      cases duty with
      | free => exact staffed
      | arriving => exact staffed.take found
      | holding item => exact staffed.finish found
      | waiting target asked =>
          obtain ⟨added, rfl⟩ := staffed.waiting target asked (List.mem_of_getElem? found)
          exact staffed.look found rfl added

/-- A whole run keeps the queue staffed, by induction on its steps. -/
theorem run (events : List (Nat × CrewAction α)) : (crew.run events).Staffed := by
  induction events generalizing crew with
  | nil => exact staffed
  | cons event rest ih => exact ih (staffed.after event)

end Staffed

/-- No work is stranded, and waits wait for enough. Let any number of threads add work, start the
queue and wait for it, in any order, and let whoever drains go on at any moment. When the queue is
started and items are pending, there is one drainer, and there are never two. Every item that was
added is done, in progress or pending, in this order; the queue's counts say how many, and one item
at most is in progress. And when a wait has returned to a thread that did not drain the started
queue, all that had been added when it was called was done. -/
theorem never_stranded (threads : Nat) (events : List (Nat × CrewAction α)) :
    let crew := (new threads).run events
    (crew.queue.isStarted = true → crew.queue.pending ≠ [] → crew.drainers = 1) ∧
      crew.drainers ≤ 1 ∧
      crew.queue.enqueued =
        crew.queue.completed + crew.queue.pending.length + crew.inHand.length ∧
      crew.inHand.length ≤ 1 ∧
      crew.added = crew.done ++ (crew.inHand ++ crew.queue.pending) ∧
      crew.queue.completed = crew.done.length ∧
      ∀ wait ∈ crew.waits, wait.isOwn = false → wait.isStarted = true →
        wait.asked <+: wait.done := by
  intro crew
  have staffed : crew.Staffed := (staffed_new threads).run events
  have sole : crew.drainers ≤ 1 := staffed.drained ▸ Bool.toNat_le _
  refine ⟨fun started pending => ?_, sole, ?_, Nat.le_trans (length_items_le _) sole,
    staffed.accounted, staffed.completed, staffed.returned⟩
  · cases drains : crew.queue.isDraining with
    | false => exact absurd (staffed.attended started drains) pending
    | true => rw [staffed.drained, drains]; rfl
  · rw [staffed.enqueued, staffed.completed, staffed.accounted]
    simp only [List.length_append]
    omega

end Crew

end StateTree
