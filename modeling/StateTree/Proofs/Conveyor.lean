/-
Module: StateTree.Proofs.Conveyor
Purpose: A site behind stages that hold updates back: buffers, workers with a thread of their own,
  and random delays, in any order. One caller submits and flushes; meanwhile every stage takes its
  steps whenever it comes to it. At each moment the root is what some first part of the submitted
  updates makes of it, and when a flush has returned it is what all of them make of it.
-/
import StateTree.Pipeline.Buffer
import StateTree.Pipeline.Stage
import StateTree.Proofs.Workplace

namespace StateTree

/-! ### Stages and what they are at -/

/-- What is asked of a stage. -/
inductive StageCall where
  | submit (update : Update)
  | flush
deriving DecidableEq

/-- The update that a request brings. -/
def StageCall.updates : StageCall → List Update
  | .submit update => [update]
  | .flush => []

/-- What the thread of a worker has before it, whether it is flushing below for a caller, and
whether a caller waits for that. The mark of a flush stands in the channel like an update. -/
structure Desk where
  channel : List StageCall
  isFlushing : Bool
  isAwaited : Bool

/-- Nothing to do. -/
def Desk.empty : Desk := ⟨[], false, false⟩

/-- Whether nobody drains the queue. -/
def Drainer.isAbsent {κ : Type} : Drainer κ → Bool
  | .absent => true
  | _ => false

/-- A site at work and the stages in front of it. Each is called by one thread only: the caller of
the stage in front of it, or the thread of that stage. -/
inductive Conveyor where
  | site (place : Workplace Nat)
  /-- A flush has a batch at hand, of which so much is left. -/
  | buffer (kept : Buffer) (batch : Option (List Update)) (down : Conveyor)
  | worker (desk : Desk) (down : Conveyor)
  /-- A call that is held back. -/
  | jitter (delayed : Option StageCall) (down : Conveyor)

namespace Conveyor

/-- Whether a call of the one who calls the first stage has not returned yet. A site does its work
on the thread that calls it; a worker only has its caller wait for a flush. -/
def isBusy : Conveyor → Bool
  | .site place => !place.drainer.isAbsent
  | .buffer _ batch down => batch.isSome || down.isBusy
  | .worker desk _ => desk.isAwaited
  | .jitter delayed down => delayed.isSome || down.isBusy

/-- A stage is free if it is at nothing and those behind it are free. -/
theorem free_site_iff {place : Workplace Nat} :
    (site place).isBusy = false ↔ place.drainer = .absent := by
  obtain ⟨site, drainer⟩ := place
  cases drainer <;> simp [isBusy, Drainer.isAbsent]

theorem free_buffer_iff {kept : Buffer} {batch : Option (List Update)} {down : Conveyor} :
    (buffer kept batch down).isBusy = false ↔ batch = none ∧ down.isBusy = false := by
  simp [isBusy]

theorem free_jitter_iff {delayed : Option StageCall} {down : Conveyor} :
    (jitter delayed down).isBusy = false ↔ delayed = none ∧ down.isBusy = false := by
  simp [isBusy]

/-- Make a call. The site that is flushed has nothing left to wait for: its one caller has come back
from all work before. -/
def call (request : StageCall) : Conveyor → Conveyor
  | .site place =>
      match request with
      | .submit update => .site (place.offer (.apply update))
      | .flush => .site place
  | .buffer kept batch down =>
      match request with
      | .submit update => .buffer (kept.push update) batch down
      | .flush => .buffer kept (some []) down
  | .worker desk down =>
      .worker ⟨desk.channel ++ [request], desk.isFlushing,
        desk.isAwaited || request == .flush⟩ down
  | .jitter _ down => .jitter (some request) down

/-- Whether a call that the first stage has made has not returned yet. -/
def isWaiting : Conveyor → Bool
  | .site _ => false
  | .buffer _ _ down | .worker _ down | .jitter _ down => down.isBusy

/-- The next step of the first stage, which does not wait. A flush of a buffer hands on batch after
batch until none is left, and then flushes below. The thread of a worker takes the next request from
its channel; when a flush below has returned, so does the one that waits for it. -/
def go : Conveyor → Conveyor
  | .site place => .site place.step
  | .buffer kept none down => .buffer kept none down
  | .buffer kept (some []) down =>
      let (next, emptied) := kept.takeAll
      if next.isEmpty then .buffer emptied none (down.call .flush)
      else .buffer emptied (some next) down
  | .buffer kept (some (update :: rest)) down =>
      .buffer kept (some rest) (down.call (.submit update))
  | .worker ⟨channel, true, _⟩ down => .worker ⟨channel, false, false⟩ down
  | .worker ⟨[], false, isAwaited⟩ down => .worker ⟨[], false, isAwaited⟩ down
  | .worker ⟨request :: rest, false, isAwaited⟩ down =>
      .worker ⟨rest, request == .flush, isAwaited⟩ (down.call request)
  | .jitter none down => .jitter none down
  | .jitter (some request) down => .jitter none (down.call request)

/-- The next step of the first stage. -/
def turn (line : Conveyor) : Conveyor := if line.isWaiting then line else line.go

/-- The next step of the stage that stands so deep. -/
def work : Nat → Conveyor → Conveyor
  | 0, line => line.turn
  | _ + 1, .site place => .site place
  | depth + 1, .buffer kept batch down => .buffer kept batch (down.work depth)
  | depth + 1, .worker desk down => .worker desk (down.work depth)
  | depth + 1, .jitter delayed down => .jitter delayed (down.work depth)

/-- The site at the end. -/
def place : Conveyor → Workplace Nat
  | .site place => place
  | .buffer _ _ down | .worker _ down | .jitter _ down => down.place

/-- The updates that were submitted and are not applied yet, in their order: what stages further
down hold comes first. -/
def held : Conveyor → List Update
  | .site place => place.owed
  | .buffer kept batch down => down.held ++ (batch.getD [] ++ kept.updates)
  | .worker desk down => down.held ++ desk.channel.flatMap StageCall.updates
  | .jitter delayed down => down.held ++ delayed.toList.flatMap StageCall.updates

/-! ### What moves -/

/-- One line comes of another, to which updates were submitted meanwhile: those that are no longer
held have been applied. -/
def Moves (line later : Conveyor) (added : List Update) : Prop :=
  ∃ applied, line.held ++ added = applied ++ later.held ∧
    later.place.site.schema = line.place.site.schema ∧
    later.place.site.root =
      applied.foldl (Update.foldInto line.place.site.schema) line.place.site.root

theorem Moves.refl (line : Conveyor) : line.Moves line [] :=
  ⟨[], by simp, rfl, rfl⟩

/-- What goes from a stage to those below it moves the whole. -/
theorem Moves.under {line later down after : Conveyor} {added more rest : List Update}
    (moves : down.Moves after added) (place : line.place = down.place)
    (placed : later.place = after.place)
    (holds : line.held ++ more = down.held ++ (added ++ rest))
    (keeps : later.held = after.held ++ rest) : line.Moves later more := by
  obtain ⟨applied, kept, schema, root⟩ := moves
  refine ⟨applied, ?_, ?_, ?_⟩
  · rw [holds, keeps, ← List.append_assoc, kept, List.append_assoc]
  · rw [place, placed, schema]
  · rw [place, placed, root]

/-- A call that is made while none is at hand adds its update behind all others. -/
theorem moves_call {line : Conveyor} (free : line.isBusy = false) (request : StageCall) :
    line.Moves (line.call request) request.updates := by
  cases line with
  | site place =>
      cases request with
      | flush => exact .refl _
      | submit update =>
          have manned : place.Manned := fun _ => free_site_iff.mp free
          exact ⟨[], (Workplace.offer_spec manned (.apply update)).2.symm, rfl, rfl⟩
  | buffer kept batch down =>
      obtain ⟨rfl, -⟩ := free_buffer_iff.mp free
      cases request with
      | flush => exact (Moves.refl down).under rfl rfl (by simp [held, StageCall.updates]) rfl
      | submit update =>
          exact (Moves.refl down).under rfl rfl (by simp [held]; rfl)
            (by simp [call, held, StageCall.updates, Buffer.push])
  | worker desk down =>
      have behind : (worker desk down).held ++ request.updates = down.held ++
          ([] ++ (desk.channel.flatMap StageCall.updates ++ request.updates)) :=
        List.append_assoc _ _ _
      exact (Moves.refl down).under rfl rfl behind (by simp [call, held])
  | jitter delayed down =>
      obtain ⟨rfl, -⟩ := free_jitter_iff.mp free
      exact (Moves.refl down).under rfl rfl (by simp [held]; rfl) (by simp [call, held])

theorem moves_turn (line : Conveyor) : line.Moves line.turn [] := by
  unfold turn
  split
  · exact .refl _
  rename_i free
  rw [Bool.not_eq_true] at free
  cases line with
  | site place =>
      obtain ⟨schema, root⟩ := place.root_step
      exact ⟨place.drainer.updates, (List.append_nil _).trans place.owed_step, schema, root⟩
  | buffer kept batch down =>
      rcases batch with _ | _ | ⟨update, rest⟩
      · exact .refl _
      · unfold go
        dsimp only
        split
        · rename_i none
          have empty : kept.updates = [] := List.isEmpty_iff.mp none
          have holds : (buffer kept (some []) down).held ++ [] = down.held ++ ([] ++ []) := by
            simp [held, empty]
          exact (moves_call free .flush).under rfl rfl holds rfl
        · exact (Moves.refl down).under rfl rfl (List.append_nil _)
            (by simp [held, Buffer.takeAll])
      · exact (moves_call free (.submit update)).under rfl rfl (List.append_nil _) rfl
  | worker desk down =>
      rcases desk with ⟨_ | ⟨request, rest⟩, _ | _, isAwaited⟩
      · exact .refl _
      · exact (Moves.refl down).under rfl rfl (List.append_nil _) rfl
      · exact (moves_call free request).under rfl rfl (List.append_nil _) rfl
      · exact (Moves.refl down).under rfl rfl (List.append_nil _) rfl
  | jitter delayed down =>
      cases delayed with
      | none => exact .refl _
      | some request => exact (moves_call free request).under rfl rfl (List.append_nil _) rfl

/-- A step of any stage applies what is no longer held. -/
theorem moves_work (depth : Nat) (line : Conveyor) : line.Moves (line.work depth) [] := by
  induction line generalizing depth with
  | site place =>
      cases depth with
      | zero => exact moves_turn _
      | succ depth => exact .refl _
  | buffer kept batch down ih =>
      cases depth with
      | zero => exact moves_turn _
      | succ depth => exact (ih depth).under rfl rfl (by simp [held]) rfl
  | worker desk down ih =>
      cases depth with
      | zero => exact moves_turn _
      | succ depth => exact (ih depth).under rfl rfl (by simp [held]) rfl
  | jitter delayed down ih =>
      cases depth with
      | zero => exact moves_turn _
      | succ depth => exact (ih depth).under rfl rfl (by simp [held]) rfl

/-! ### Flushes -/

/-- What a flush leaves behind as its last call. Once it has returned no stage holds anything; until
then there is a stage that has still to pass it on. -/
def Flushed : Conveyor → Prop
  | .site _ => True
  | .buffer kept batch down => batch = none → kept.updates = [] ∧ down.Flushed
  | .worker desk down =>
      desk.isAwaited = false → desk.channel = [] ∧ down.isBusy = false ∧ down.Flushed
  | .jitter delayed down => (delayed = none → down.Flushed) ∧ ∀ request ∈ delayed, request = .flush

end Conveyor

/-- What a desk can look like. A caller who waits for a flush sends nothing behind its mark, so the
mark stands last; when the thread has taken it, all below has been told to flush. -/
inductive Desk.Orderly (flushed : Prop) : Desk → Prop where
  | free {channel : List StageCall} (unmarked : .flush ∉ channel) :
      Orderly flushed ⟨channel, false, false⟩
  | marked {front : List StageCall} (unmarked : .flush ∉ front) :
      Orderly flushed ⟨front ++ [.flush], false, true⟩
  | flushing (told : flushed) : Orderly flushed ⟨[], true, true⟩

namespace Conveyor

/-- The site has a drainer as long as there is work, and every desk is orderly. -/
def Sound : Conveyor → Prop
  | .site place =>
      place.Manned ∧ place.Attended ∧ place.site.queue.isStarted = true
  | .buffer _ _ down | .jitter _ down => down.Sound
  | .worker desk down => desk.Orderly down.Flushed ∧ down.Sound

theorem sound_call {line : Conveyor} (sound : line.Sound) (free : line.isBusy = false)
    (request : StageCall) : (line.call request).Sound := by
  cases line with
  | site place =>
      cases request with
      | flush => exact sound
      | submit update =>
          obtain ⟨manned, attended, started⟩ := sound
          exact ⟨(Workplace.offer_spec manned _).1, Workplace.attended_offer attended _,
            (place.site_offer _).2.2.2.trans started⟩
  | buffer kept batch down => cases request <;> exact sound
  | jitter delayed down => exact sound
  | worker desk down =>
      obtain ⟨orderly, below⟩ := sound
      refine ⟨?_, below⟩
      cases orderly with
      | free unmarked =>
          cases request with
          | flush => exact .marked unmarked
          | submit update => exact .free (by simpa using unmarked)
      | marked => cases free
      | flushing => cases free

theorem flushed_call {line : Conveyor} : (line.call .flush).Flushed := by
  cases line with
  | site place => trivial
  | buffer kept batch down => exact nofun
  | worker desk down =>
      intro unawaited
      simp at unawaited
  | jitter delayed down => exact ⟨nofun, by simp⟩

/-- A stage that no call is at stays so until the next call. -/
theorem isBusy_turn {line : Conveyor} (free : line.isBusy = false) : line.turn.isBusy = false := by
  unfold turn
  split
  · exact free
  cases line with
  | site place =>
      rw [go, Workplace.step, free_site_iff.mp free]
      exact free
  | buffer kept batch down =>
      obtain ⟨rfl, -⟩ := free_buffer_iff.mp free
      exact free
  | worker desk down =>
      obtain ⟨channel, isFlushing, isAwaited⟩ := desk
      cases isFlushing with
      | true => rfl
      | false => cases channel <;> exact free
  | jitter delayed down =>
      obtain ⟨rfl, -⟩ := free_jitter_iff.mp free
      exact free

/-- A line that is free stays free, whichever stage is to take a step. -/
theorem isBusy_work {line : Conveyor} (free : line.isBusy = false) (depth : Nat) :
    (line.work depth).isBusy = false := by
  induction line generalizing depth with
  | site place =>
      cases depth with
      | zero => exact isBusy_turn free
      | succ depth => exact free
  | buffer kept batch down ih =>
      cases depth with
      | zero => exact isBusy_turn free
      | succ depth =>
          obtain ⟨idle, free⟩ := free_buffer_iff.mp free
          exact free_buffer_iff.mpr ⟨idle, ih free depth⟩
  | worker desk down ih =>
      cases depth with
      | zero => exact isBusy_turn free
      | succ depth => exact free
  | jitter delayed down ih =>
      cases depth with
      | zero => exact isBusy_turn free
      | succ depth =>
          obtain ⟨idle, free⟩ := free_jitter_iff.mp free
          exact free_jitter_iff.mpr ⟨idle, ih free depth⟩

/-- The next step of a stage keeps the line sound, one case for each stage and what it is at. -/
theorem sound_turn {line : Conveyor} (sound : line.Sound) : line.turn.Sound := by
  unfold turn
  split
  · exact sound
  rename_i free
  rw [Bool.not_eq_true] at free
  cases line with
  | site place =>
      obtain ⟨manned, attended, started⟩ := sound
      refine ⟨Workplace.manned_step manned, Workplace.attended_step attended, ?_⟩
      cases holding : place.drainer.isHolding with
      | false => exact (Workplace.step_of_resting holding).2.2.2.2.2.trans started
      | true =>
          obtain ⟨site, drainer⟩ := place
          cases drainer with
          | holding item =>
              exact (congrArg _ (Workplace.process_spec site item).2.2).trans started
          | _ => cases holding
  | buffer kept batch down =>
      have below : down.Sound := sound
      rcases batch with _ | _ | ⟨update, rest⟩
      · exact sound
      · unfold go
        dsimp only
        split
        · exact sound_call below free .flush
        · exact sound
      · exact sound_call below free (.submit update)
  | worker desk down =>
      obtain ⟨orderly, sound⟩ := sound
      have below := sound_call sound free
      -- What the thread takes is an update, or the mark that stands last.
      cases orderly with
      | @free channel unmarked =>
          cases channel with
          | nil => exact ⟨.free unmarked, sound⟩
          | cons request rest =>
              obtain ⟨here, later⟩ := List.ne_and_not_mem_of_not_mem_cons unmarked
              refine ⟨?_, below request⟩
              simp only [beq_eq_false_iff_ne.mpr here.symm]
              exact .free later
      | @marked front unmarked =>
          cases front with
          | nil => exact ⟨.flushing flushed_call, below .flush⟩
          | cons request rest =>
              obtain ⟨here, later⟩ := List.ne_and_not_mem_of_not_mem_cons unmarked
              refine ⟨?_, below request⟩
              simp only [beq_eq_false_iff_ne.mpr here.symm]
              exact .marked later
      | flushing told => exact ⟨.free List.not_mem_nil, sound⟩
  | jitter delayed down =>
      have below : down.Sound := sound
      cases delayed with
      | none => exact sound
      | some request => exact sound_call below free request

theorem flushed_turn {line : Conveyor} (sound : line.Sound) (flushed : line.Flushed) :
    line.turn.Flushed := by
  unfold turn
  split
  · exact flushed
  rename_i free
  rw [Bool.not_eq_true] at free
  cases line with
  | site place => trivial
  | buffer kept batch down =>
      rcases batch with _ | _ | ⟨update, rest⟩
      · exact flushed
      · unfold go
        dsimp only
        split
        · exact fun _ => ⟨rfl, flushed_call⟩
        · exact nofun
      · exact nofun
  | worker desk down =>
      cases sound.1 with
      | free unmarked =>
          obtain ⟨rfl, -⟩ := flushed rfl
          exact flushed
      | @marked front unmarked => cases front <;> exact nofun
      | flushing told => exact fun _ => ⟨rfl, free, told⟩
  | jitter delayed down =>
      cases delayed with
      | none => exact flushed
      | some request =>
          obtain rfl := flushed.2 request rfl
          exact ⟨fun _ => flushed_call, nofun⟩

/-- What holds of a line goes on to hold at a step of any of its stages. -/
theorem work_spec {line : Conveyor} (sound : line.Sound) (depth : Nat) :
    (line.work depth).Sound ∧ (line.Flushed → (line.work depth).Flushed) := by
  induction line generalizing depth with
  | site place =>
      cases depth with
      | zero => exact ⟨sound_turn sound, flushed_turn sound⟩
      | succ depth => exact ⟨sound, id⟩
  | buffer kept batch down ih =>
      cases depth with
      | zero => exact ⟨sound_turn sound, flushed_turn sound⟩
      | succ depth =>
          obtain ⟨below, kept⟩ := ih sound depth
          exact ⟨below, fun flushed idle => ⟨(flushed idle).1, kept (flushed idle).2⟩⟩
  | worker desk down ih =>
      cases depth with
      | zero => exact ⟨sound_turn sound, flushed_turn sound⟩
      | succ depth =>
          obtain ⟨orderly, sound⟩ := sound
          obtain ⟨below, kept⟩ := ih sound depth
          constructor
          · refine ⟨?_, below⟩
            cases orderly with
            | free unmarked => exact .free unmarked
            | marked unmarked => exact .marked unmarked
            | flushing told => exact .flushing (kept told)
          · intro flushed unawaited
            obtain ⟨done, free, told⟩ := flushed unawaited
            exact ⟨done, isBusy_work free depth, kept told⟩
  | jitter delayed down ih =>
      cases depth with
      | zero => exact ⟨sound_turn sound, flushed_turn sound⟩
      | succ depth =>
          obtain ⟨below, kept⟩ := ih sound depth
          exact ⟨below, fun flushed => ⟨fun idle => kept (flushed.1 idle), flushed.2⟩⟩

/-- When a flush was the last call and has returned, nothing is held any more. -/
theorem held_of_flushed {line : Conveyor} (sound : line.Sound) (flushed : line.Flushed)
    (free : line.isBusy = false) : line.held = [] := by
  induction line with
  | site place =>
      obtain ⟨-, attended, started⟩ := sound
      have absent := free_site_iff.mp free
      have done := (attended absent).2 started
      simp [held, Workplace.owed, absent, done, Drainer.updates]
  | buffer kept batch down ih =>
      obtain ⟨rfl, free⟩ := free_buffer_iff.mp free
      obtain ⟨empty, told⟩ := flushed rfl
      simp [held, ih sound told free, empty]
  | worker desk down ih =>
      obtain ⟨empty, free, told⟩ := flushed free
      simp [held, ih sound.2 told free, empty]
  | jitter delayed down ih =>
      obtain ⟨rfl, free⟩ := free_jitter_iff.mp free
      simp [held, ih sound (flushed.1 rfl) free]

end Conveyor

/-! ### Stacks -/

/-- A stage that holds updates back and does nothing else to them. -/
def Stage.holdsBack : Stage → Bool
  | .buffering _ | .asynchronous | .jitter _ => true
  | _ => false

/-- A stage that holds nothing yet, in front of a line. -/
def Stage.front (down : Conveyor) : Stage → Conveyor
  | .buffering _ => .buffer .empty none down
  | .asynchronous => .worker .empty down
  | .jitter _ => .jitter none down
  | _ => down

/-- A site that is started, has no hooks and has done all its work. -/
structure Site.Resting {κ : Type} (site : Site κ) : Prop where
  started : site.queue.isStarted = true
  unmanned : site.queue.isDraining = false
  done : site.queue.pending = []
  hookless : site.hooks.hooks = []

namespace Conveyor

/-- The line of a stack, of which the first stage is the outermost. -/
def ofStack (stages : List Stage) (site : Site Nat) : Conveyor :=
  stages.foldr (fun stage down => stage.front down) (.site ⟨site, .absent⟩)

/-- A line at which nothing has happened yet. -/
structure Fresh (line : Conveyor) (site : Site Nat) : Prop where
  sound : line.Sound
  free : line.isBusy = false
  empty : line.held = []
  place : line.place = ⟨site, .absent⟩

theorem fresh_ofStack (stages : List Stage) {site : Site Nat} (resting : site.Resting) :
    (ofStack stages site).Fresh site := by
  induction stages with
  | nil =>
      obtain ⟨started, unmanned, done, -⟩ := resting
      refine ⟨⟨fun _ => rfl, fun _ => ⟨unmanned, fun _ => done⟩, started⟩, rfl, ?_, rfl⟩
      simp [ofStack, held, Workplace.owed, Drainer.updates, done]
  | cons stage rest ih =>
      obtain ⟨sound, free, empty, place⟩ := ih
      rw [ofStack, List.foldr_cons]
      cases stage with
      | buffering name =>
          refine ⟨sound, free, ?_, place⟩
          exact (List.append_nil _).trans empty
      | asynchronous =>
          refine ⟨⟨.free List.not_mem_nil, sound⟩, rfl, ?_, place⟩
          exact (List.append_nil _).trans empty
      | jitter config =>
          refine ⟨sound, free, ?_, place⟩
          exact (List.append_nil _).trans empty
      | _ => exact ⟨sound, free, empty, place⟩

end Conveyor

/-! ### One caller -/

/-- What happens at a line: its one caller makes a call, or a stage takes its next step. -/
inductive ConveyorEvent where
  | call (request : StageCall)
  | work (depth : Nat)

/-- A line with what its one caller has submitted, and whether the last call was a flush. -/
structure Session where
  line : Conveyor
  submitted : List Update
  isFlushed : Bool

namespace Session

/-- No call was made yet. -/
def new (line : Conveyor) : Session := ⟨line, [], false⟩

/-- The root of the site. -/
def root (session : Session) : Node := session.line.place.site.root

/-- All calls have returned, the last of them a flush. -/
def hasFlushed (session : Session) : Bool := session.isFlushed && !session.line.isBusy

/-- The session after an event. No call is made while another is at hand. -/
def after (session : Session) : ConveyorEvent → Session
  | .call request =>
      if session.line.isBusy then session
      else ⟨session.line.call request, session.submitted ++ request.updates, request == .flush⟩
  | .work depth => { session with line := session.line.work depth }

/-- The session after several events. -/
def run (session : Session) (events : List ConveyorEvent) : Session :=
  events.foldl after session

/-- What has come of a root so far: the updates that no stage holds are applied, and behind a flush
none is held in the end. -/
structure Keeps (schema : Schema) (root : Node) (session : Session) : Prop where
  sound : session.line.Sound
  flushed : session.isFlushed = true → session.line.Flushed
  governed : session.line.place.site.schema = schema
  applied : ∃ applied, session.submitted = applied ++ session.line.held ∧
    session.root = applied.foldl (Update.foldInto schema) root

variable {schema : Schema} {root : Node} {session : Session}

/-- Moving the line along applies the next of the updates. -/
theorem Keeps.applied_of_moves (keeps : session.Keeps schema root) {line : Conveyor}
    {added : List Update} (moves : session.line.Moves line added) :
    line.place.site.schema = schema ∧
      ∃ applied, session.submitted ++ added = applied ++ line.held ∧
        line.place.site.root = applied.foldl (Update.foldInto schema) root := by
  obtain ⟨-, -, rfl, earlier, submitted, before⟩ := keeps
  obtain ⟨applied, holds, governed, after⟩ := moves
  refine ⟨governed, earlier ++ applied, ?_, ?_⟩
  · rw [submitted, List.append_assoc, holds, List.append_assoc]
  · rw [after, List.foldl_append, ← before]
    rfl

theorem Keeps.after (keeps : session.Keeps schema root) (event : ConveyorEvent) :
    (session.after event).Keeps schema root := by
  cases event with
  | call request =>
      rw [Session.after]
      split
      · exact keeps
      · rename_i free
        rw [Bool.not_eq_true] at free
        obtain ⟨governed, applied⟩ :=
          keeps.applied_of_moves (Conveyor.moves_call free request)
        refine ⟨Conveyor.sound_call keeps.sound free request, ?_, governed, applied⟩
        intro isFlush
        obtain rfl : request = .flush := by simpa using isFlush
        exact Conveyor.flushed_call
  | work depth =>
      obtain ⟨governed, applied⟩ :=
        keeps.applied_of_moves (session.line.moves_work depth)
      obtain ⟨sound, kept⟩ := Conveyor.work_spec keeps.sound depth
      rw [List.append_nil] at applied
      exact ⟨sound, fun isFlush => kept (keeps.flushed isFlush), governed, applied⟩

/-- What a session keeps it keeps over a whole run, by induction on its steps. -/
theorem Keeps.run (keeps : session.Keeps schema root) (events : List ConveyorEvent) :
    (session.run events).Keeps schema root := by
  induction events generalizing session with
  | nil => exact keeps
  | cons event rest ih => exact ih (keeps.after event)

/-- At any time the root has a first part of what was submitted. -/
theorem Keeps.partly (keeps : session.Keeps schema root) :
    ∃ count, count ≤ session.submitted.length ∧
      session.root = (session.submitted.take count).foldl (Update.foldInto schema) root := by
  obtain ⟨applied, submitted, root⟩ := keeps.applied
  refine ⟨applied.length, ?_, ?_⟩
  · simp [submitted]
  · rw [submitted, List.take_left]
    exact root

/-- When a flush has returned, the root has all of what was submitted. -/
theorem Keeps.whole (keeps : session.Keeps schema root) (done : session.hasFlushed = true) :
    session.root = session.submitted.foldl (Update.foldInto schema) root := by
  rw [hasFlushed, Bool.and_eq_true, Bool.not_eq_eq_eq_not, Bool.not_true] at done
  obtain ⟨applied, submitted, root⟩ := keeps.applied
  have empty := Conveyor.held_of_flushed keeps.sound (keeps.flushed done.1) done.2
  rw [submitted, empty, List.append_nil]
  exact root

theorem keeps_new {line : Conveyor} {site : Site Nat} (fresh : line.Fresh site) :
    (new line).Keeps site.schema site.root := by
  have schema : line.place.site.schema = site.schema := by rw [fresh.place]
  have root : line.place.site.root = site.root := by rw [fresh.place]
  exact ⟨fresh.sound, nofun, schema, [], fresh.empty.symm, root⟩

/-- Whatever happens at a stack that holds nothing yet. -/
theorem keeps_ofStack (stages : List Stage) {site : Site Nat} (resting : site.Resting)
    (events : List ConveyorEvent) :
    ((new (.ofStack stages site)).run events).Keeps site.schema site.root :=
  (keeps_new (Conveyor.fresh_ofStack stages resting)).run events

end Session

end StateTree
