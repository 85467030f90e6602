/-
Module: StateTree.Proofs.Workshop
Purpose: A site at work with its hooks. The drainer of the queue processes an item, makes the calls
  that the item has caused one after the other, and submits what each callback submits, before it
  takes the next item. Updates and registrations arrive at any moment in between, from any thread;
  a registration draws its place in the order, puts the hook in the registry and adds the item that
  introduces it, in three steps that others may come between. The state keeps on record what was
  added, what was processed and what was called.
-/
import StateTree.Proofs.Workplace

namespace StateTree

variable {κ : Type}

/-- An item of work that was processed, and the hooks that were in the registry then. -/
structure Entry (κ : Type) where
  item : WorkItem κ
  hooks : List (Hook κ)

/-- What the drainer of a site has done. -/
inductive Happening (κ : Type) where
  /-- An item has left this root. -/
  | processed (item : WorkItem κ) (root : Node)
  | called (call : HookCall κ)
  /-- All that an item has called for is over. -/
  | completed

/-- The call that the drainer has made. -/
def Happening.call? : Happening κ → Option (HookCall κ)
  | .called call => some call
  | _ => none

/-- A site at work. -/
structure Workshop (κ : Type) where
  workplace : Workplace κ
  /-- The first root that was published. -/
  origin : Node
  /-- All hooks, in the order of registration. -/
  drawn : List (Hook κ)
  /-- Hooks that are not in the registry yet. -/
  unplaced : List (Hook κ)
  /-- Hooks in the registry that have not been introduced. -/
  unpresented : List (Hook κ)
  /-- The calls that the last item has caused and that have not been made. -/
  due : List (HookCall κ)
  /-- What the running callback has not submitted yet. -/
  said : List Update
  /-- All items that were added. -/
  arrived : List (WorkItem κ)
  /-- All items that were processed. -/
  entries : List (Entry κ)
  journal : List (Happening κ)

/-- One step of a site at work: of a thread that submits, registers a hook or starts the site, or
of the drainer. Registrations that are under way are told apart by their places in the lists. -/
inductive WorkshopEvent (κ : Type) where
  | submit (update : Update)
  | draw (name : String) (scope : Accessor) (priority : Int) (payload : κ)
  | place (index : Nat)
  | present (index : Nat)
  | start (root : Node)
  | work

/-- The root that an item leaves, and the calls that it causes. -/
def WorkItem.effect (schema : Schema) (hooks : List (Hook κ)) (before : Node) :
    WorkItem κ → Node × List (HookCall κ)
  | .introduce hook => (before, (hook.existing before).map fun path => ⟨hook, path, before⟩)
  | .apply update =>
      match update.operation.apply schema before with
      | .ok (some after) =>
          (after, hooks.flatMap fun hook =>
            (hook.affected before after update.target).map fun path => ⟨hook, path, after⟩)
      | _ => (before, [])

/-- What is done when items are processed one after the other: each one is processed, then its calls
are made. -/
def chronicle (schema : Schema) : Node → List (Entry κ) → List (Happening κ)
  | _, [] => []
  | before, entry :: rest =>
      let (after, calls) := entry.item.effect schema entry.hooks before
      .processed entry.item after :: calls.map .called ++ .completed :: chronicle schema after rest

/-- The root that items leave. -/
def rootAfter (schema : Schema) (origin : Node) (entries : List (Entry κ)) : Node :=
  entries.foldl (fun before entry => (entry.item.effect schema entry.hooks before).1) origin

namespace Workshop

/-- A site that is not started, at which nothing has happened. -/
def new (name : String) (identity : Identifier) (schema : Schema) : Workshop κ where
  workplace := ⟨.new name identity schema, .absent⟩
  origin := .struct .empty
  drawn := []
  unplaced := []
  unpresented := []
  due := []
  said := []
  arrived := []
  entries := []
  journal := []

/-- Add an item of work. -/
def add (shop : Workshop κ) (item : WorkItem κ) : Workshop κ :=
  { shop with workplace := shop.workplace.offer item, arrived := shop.arrived ++ [item] }

/-- Draw the next place in the order of registration. -/
def draw (shop : Workshop κ) (name : String) (scope : Accessor) (priority : Int) (payload : κ) :
    Workshop κ :=
  let (sequence, registry) := shop.workplace.site.hooks.draw
  let hook : Hook κ := ⟨name, priority, sequence, scope, payload⟩
  { shop with
    workplace := { shop.workplace with site := { shop.workplace.site with hooks := registry } }
    drawn := shop.drawn ++ [hook]
    unplaced := shop.unplaced ++ [hook] }

/-- Put a hook in the registry. -/
def place (shop : Workshop κ) (index : Nat) : Workshop κ :=
  match shop.unplaced[index]? with
  | none => shop
  | some hook =>
      let site := shop.workplace.site
      { shop with
        workplace := { shop.workplace with site := { site with hooks := site.hooks.insert hook } }
        unplaced := shop.unplaced.eraseIdx index
        unpresented := shop.unpresented ++ [hook] }

/-- Add the item that introduces a hook. -/
def present (shop : Workshop κ) (index : Nat) : Workshop κ :=
  match shop.unpresented[index]? with
  | none => shop
  | some hook =>
      { shop with unpresented := shop.unpresented.eraseIdx index }.add (.introduce hook)

/-- Publish the first root and start to work; this happens once. -/
def start (shop : Workshop κ) (root : Node) : Workshop κ :=
  if shop.workplace.site.queue.isStarted then shop
  else
    { shop with
      workplace := shop.workplace.change (shop.workplace.site.start root)
      origin := root }

/-- Process the item that the drainer holds. -/
def process (shop : Workshop κ) (item : WorkItem κ) : Workshop κ :=
  let (site, calls) := shop.workplace.site.process item
  { shop with
    workplace := ⟨site, .finished⟩
    due := calls
    entries := shop.entries ++ [⟨item, shop.workplace.site.hooks.hooks⟩]
    journal := shop.journal ++ [.processed item site.root] }

/-- The next step of the drainer: what a callback submits comes first, then the calls that are due,
then the queue. -/
def work (callback : HookCall κ → List Update) (shop : Workshop κ) : Workshop κ :=
  match shop.said, shop.due with
  | update :: rest, _ => { shop with said := rest }.add (.apply update)
  | [], call :: rest =>
      { shop with
        due := rest
        said := callback call
        journal := shop.journal ++ [.called call] }
  | [], [] =>
      match shop.workplace.drainer with
      | .holding item => shop.process item
      | .finished =>
          { shop with
            workplace := shop.workplace.step
            journal := shop.journal ++ [.completed] }
      | .absent | .arriving => { shop with workplace := shop.workplace.step }

/-- A site at work after a step. -/
def after (callback : HookCall κ → List Update) (shop : Workshop κ) :
    WorkshopEvent κ → Workshop κ
  | .submit update => shop.add (.apply update)
  | .draw name scope priority payload => shop.draw name scope priority payload
  | .place index => shop.place index
  | .present index => shop.present index
  | .start root => shop.start root
  | .work => shop.work callback

/-- A site at work after several steps. -/
def run (callback : HookCall κ → List Update) (shop : Workshop κ)
    (events : List (WorkshopEvent κ)) : Workshop κ :=
  events.foldl (after callback) shop

/-- What is still to be done for the item that was processed last. -/
def outstanding (shop : Workshop κ) : List (Happening κ) :=
  if shop.workplace.drainer.isFinished then shop.due.map .called ++ [.completed] else []

/-- What holds of a site at work at every moment. -/
structure Orderly (shop : Workshop κ) : Prop where
  manned : shop.workplace.Manned
  attended : shop.workplace.Attended
  /-- Calls are made after their item was processed and before the next is taken. -/
  quiet : shop.workplace.drainer.isFinished = false → shop.due = [] ∧ shop.said = []
  arrived : shop.arrived = shop.entries.map Entry.item ++ shop.workplace.waiting
  root : shop.workplace.site.root =
    rootAfter shop.workplace.site.schema shop.origin shop.entries
  journal : shop.journal ++ shop.outstanding =
    chronicle shop.workplace.site.schema shop.origin shop.entries
  /-- Nothing is processed before the start. -/
  dormant : shop.workplace.site.queue.isStarted = false →
    shop.workplace.drainer = .absent ∧ shop.entries = []

end Workshop

/-! ### What items do -/

/-- Processing an item has its effect on the root, calls for what it causes, and leaves the rest of
the site. -/
theorem Site.process_eq_effect (site : Site κ) (item : WorkItem κ) :
    site.process item =
      ({ site with root := (item.effect site.schema site.hooks.hooks site.root).1 },
        (item.effect site.schema site.hooks.hooks site.root).2) := by
  cases item with
  | introduce hook => rfl
  | apply update =>
      rcases applied : update.operation.apply site.schema site.root with error | _ | root <;>
        simp [process, commit, WorkItem.effect, callsFor, applied]

theorem rootAfter_append (schema : Schema) (origin : Node) (entries : List (Entry κ))
    (entry : Entry κ) :
    rootAfter schema origin (entries ++ [entry]) =
      (entry.item.effect schema entry.hooks (rootAfter schema origin entries)).1 := by
  simp [rootAfter]

theorem chronicle_append (schema : Schema) (origin : Node) (entries rest : List (Entry κ)) :
    chronicle schema origin (entries ++ rest) =
      chronicle schema origin entries ++
        chronicle schema (rootAfter schema origin entries) rest := by
  induction entries generalizing origin with
  | nil => rfl
  | cons entry entries ih =>
      simp only [List.cons_append, chronicle, ih, List.append_assoc]
      rfl

namespace Workshop

variable {shop : Workshop κ}

/-! ### Every step keeps order -/

theorem orderly_new (name : String) (identity : Identifier) (schema : Schema) :
    (new name identity schema : Workshop κ).Orderly where
  manned := fun _ => rfl
  attended := fun _ => ⟨rfl, fun _ => rfl⟩
  quiet := fun _ => ⟨rfl, rfl⟩
  arrived := rfl
  root := rfl
  journal := rfl
  dormant := fun _ => ⟨rfl, rfl⟩

namespace Orderly

variable (orderly : shop.Orderly)

include orderly

theorem add (item : WorkItem κ) : (shop.add item).Orderly := by
  obtain ⟨waiting, finished⟩ := Workplace.waiting_offer orderly.manned item
  obtain ⟨schema, root, -, started⟩ := shop.workplace.site_offer item
  have outstanding : (shop.add item).outstanding = shop.outstanding := by
    simp only [Workshop.outstanding, Workshop.add, finished]
  refine ⟨(Workplace.offer_spec orderly.manned item).1,
    Workplace.attended_offer orderly.attended item, ?_, ?_, orderly.root, ?_, ?_⟩
  · intro idle
    exact orderly.quiet (finished.symm.trans idle)
  · change shop.arrived ++ [item] = _ ++ (shop.workplace.offer item).waiting
    rw [waiting, orderly.arrived, List.append_assoc]
    rfl
  · rw [outstanding]
    exact orderly.journal
  · intro asleep
    obtain ⟨absent, none⟩ := orderly.dormant (started.symm.trans asleep)
    exact ⟨(Workplace.asleep_offer ⟨started.symm.trans asleep, absent⟩ item).2, none⟩

/-- Hooks come and go without work being done. -/
theorem enlist (hooks : HookRegistry κ) (drawn unplaced unpresented : List (Hook κ)) :
    Workshop.Orderly
      { shop with
        workplace := { shop.workplace with site := { shop.workplace.site with hooks := hooks } }
        drawn := drawn
        unplaced := unplaced
        unpresented := unpresented } :=
  ⟨orderly.manned, orderly.attended, orderly.quiet, orderly.arrived, orderly.root,
    orderly.journal, orderly.dormant⟩

theorem place (index : Nat) : (shop.place index).Orderly := by
  unfold Workshop.place
  split
  · exact orderly
  · exact orderly.enlist ..

theorem present (index : Nat) : (shop.present index).Orderly := by
  unfold Workshop.present
  split
  · exact orderly
  · exact (orderly.enlist ..).add _

theorem start (root : Node) : (shop.start root).Orderly := by
  unfold Workshop.start
  split
  · exact orderly
  · rename_i asleep
    obtain ⟨absent, none⟩ := orderly.dormant (by simpa using asleep)
    let queue := { shop.workplace.site.queue with isStarted := true }
    have waiting := Workplace.waiting_change orderly.manned
      { shop.workplace.site with root := root } queue rfl
    have finished := Workplace.isFinished_change orderly.manned
      { shop.workplace.site with root := root } queue rfl
    refine ⟨(Workplace.start_spec orderly.manned root).1,
      Workplace.attended_start orderly.attended root, ?_, ?_, ?_, ?_, ?_⟩
    · exact fun idle => orderly.quiet (finished.symm.trans idle)
    · exact orderly.arrived.trans (congrArg _ waiting.symm)
    · rw [none]
      rfl
    · have settled : shop.outstanding = [] := by
        simp [outstanding, absent, Drainer.isFinished]
      have unwritten : shop.journal = [] := by
        simpa [settled, none, chronicle] using orderly.journal
      simp only [outstanding, none, chronicle, List.append_eq_nil_iff, unwritten, true_and]
      rw [show (shop.workplace.change (shop.workplace.site.start root)).drainer.isFinished = false
        from finished.trans (by rw [absent]; rfl)]
      rfl
    · intro unstarted
      change queue.claim.2.isStarted = false at unstarted
      rcases Workplace.claim_cases queue with ⟨-, same⟩ | ⟨-, -, same⟩ <;>
      · rw [same] at unstarted
        cases unstarted

/-- The item that the drainer holds is processed. -/
theorem process {item : WorkItem κ} (held : shop.workplace.drainer = .holding item) :
    (shop.process item).Orderly := by
  have next : (shop.process item).workplace = shop.workplace.step := by
    simp [Workshop.process, Workplace.step, held]
  have before : shop.journal = chronicle shop.workplace.site.schema shop.origin shop.entries := by
    simpa [outstanding, held, Drainer.isFinished] using orderly.journal
  refine ⟨next ▸ Workplace.manned_step orderly.manned,
    next ▸ Workplace.attended_step orderly.attended, ?_, ?_, ?_, ?_, ?_⟩
  · intro idle
    cases idle
  · simp [Workshop.process, Site.process_eq_effect, Workplace.waiting, Drainer.items,
      orderly.arrived, held]
  · simp [Workshop.process, Site.process_eq_effect, rootAfter_append, orderly.root]
  · simp [Workshop.process, Site.process_eq_effect, outstanding, Drainer.isFinished,
      chronicle_append, chronicle, before, orderly.root]
  · intro asleep
    have absent := (orderly.dormant (by simpa [Workshop.process, Site.process_eq_effect]
      using asleep)).1
    cases held.symm.trans absent

/-- The drainer asks for the next item, when nothing is left of the last one. -/
theorem step (due : shop.due = []) (said : shop.said = [])
    (resting : shop.workplace.drainer.isHolding = false) :
    Workshop.Orderly
      { shop with
        workplace := shop.workplace.step
        journal := shop.journal ++ shop.outstanding } := by
  obtain ⟨waiting, finished, root, schema, -, started⟩ := Workplace.step_of_resting resting
  refine ⟨Workplace.manned_step orderly.manned, Workplace.attended_step orderly.attended,
    fun _ => ⟨due, said⟩, ?_, ?_, ?_, ?_⟩
  · exact orderly.arrived.trans (congrArg _ waiting.symm)
  · exact root.trans (schema ▸ orderly.root)
  · simp only [outstanding, finished, schema, Bool.false_eq_true, if_false, List.append_nil]
    exact orderly.journal
  · intro asleep
    obtain ⟨absent, none⟩ := orderly.dormant (started.symm.trans asleep)
    exact ⟨(congrArg Workplace.drainer (Workplace.step_of_asleep
      ⟨started.symm.trans asleep, absent⟩)).trans absent, none⟩

/-- Only what an item that was processed has called for is left to be done. -/
theorem finished_of_left (left : shop.due ≠ [] ∨ shop.said ≠ []) :
    shop.workplace.drainer = .finished := by
  have idle : shop.workplace.drainer.isFinished ≠ false := by
    intro idle
    obtain ⟨due, said⟩ := orderly.quiet idle
    exact left.elim (· due) (· said)
  cases held : shop.workplace.drainer with
  | finished => rfl
  | _ => exact absurd (congrArg Drainer.isFinished held) idle

/-- The running callback submits an update. -/
theorem speak {update : Update} {rest : List Update} (said : shop.said = update :: rest) :
    Workshop.Orderly { shop with said := rest } := by
  refine ⟨orderly.manned, orderly.attended, fun idle => ?_, orderly.arrived, orderly.root,
    orderly.journal, orderly.dormant⟩
  have held := orderly.finished_of_left (Or.inr (by simp [said]))
  simp [held, Drainer.isFinished] at idle

/-- The next call is made. -/
theorem call {first : HookCall κ} {rest : List (HookCall κ)} (due : shop.due = first :: rest)
    (updates : List Update) :
    Workshop.Orderly
      { shop with due := rest, said := updates, journal := shop.journal ++ [.called first] } := by
  have held := orderly.finished_of_left (Or.inl (by simp [due]))
  refine ⟨orderly.manned, orderly.attended, ?_, orderly.arrived, orderly.root, ?_,
    orderly.dormant⟩
  · intro idle
    simp [held, Drainer.isFinished] at idle
  · simpa [outstanding, held, Drainer.isFinished, due] using orderly.journal

/-- Whatever the drainer does next keeps order. -/
theorem work (callback : HookCall κ → List Update) : (shop.work callback).Orderly := by
  unfold Workshop.work
  split
  · rename_i update rest said
    exact (orderly.speak said).add _
  · rename_i call rest said due
    exact orderly.call due _
  · rename_i said due
    split
    · rename_i item held
      exact orderly.process held
    · rename_i held
      simpa [outstanding, held, due, Drainer.isFinished] using
        orderly.step due said (by rw [held]; rfl)
    · rename_i held
      simpa [outstanding, held, Drainer.isFinished] using
        orderly.step due said (by rw [held]; rfl)
    · rename_i held
      simpa [outstanding, held, Drainer.isFinished] using
        orderly.step due said (by rw [held]; rfl)

/-- Every step keeps order. -/
theorem after (callback : HookCall κ → List Update) (event : WorkshopEvent κ) :
    (shop.after callback event).Orderly := by
  cases event with
  | submit update => exact orderly.add _
  | draw name scope priority payload => exact orderly.enlist ..
  | place index => exact orderly.place index
  | present index => exact orderly.present index
  | start root => exact orderly.start root
  | work => exact orderly.work callback

/-- A whole run keeps order, by induction on its steps. -/
theorem run (callback : HookCall κ → List Update) (events : List (WorkshopEvent κ)) :
    (shop.run callback events).Orderly := by
  induction events generalizing shop with
  | nil => exact orderly
  | cons event rest ih => exact ih (orderly.after callback event)

end Orderly

end Workshop

end StateTree
