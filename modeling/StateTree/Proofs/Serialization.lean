/-
Module: StateTree.Proofs.Serialization
Purpose: The work of a site is serial. Items are processed one at a time in the order in which they
  were added, whoever adds them and when; all that an item calls for is over before the next is
  taken, the hooks in the order of the registry; and every call sees the root that its own item has
  left. An item that was added is processed, as long as the drainer goes on.
-/
import Mathlib.Algebra.GroupWithZero.Nat
import Mathlib.Order.Monotone.Basic
import StateTree.Proofs.Registrations
import StateTree.Proofs.Workshop

namespace StateTree

variable {κ : Type}

namespace Workshop

/-- What holds of the hooks of a site at work at every moment. -/
structure Enrolled (shop : Workshop κ) : Prop where
  sequences : shop.drawn.map Hook.sequence = List.range shop.workplace.site.hooks.drawn
  all : (shop.workplace.site.hooks.hooks ++ shop.unplaced).Perm shop.drawn
  sorted : shop.workplace.site.hooks.hooks.Pairwise fun one other => one.precedes other = true
  unpresented : shop.unpresented ⊆ shop.workplace.site.hooks.hooks
  /-- A hook is in the registry before it is introduced. -/
  introduced : ∀ hook, .introduce hook ∈ shop.arrived → hook ∈ shop.workplace.site.hooks.hooks
  /-- No hook leaves the registry. -/
  kept : ∀ entry ∈ shop.entries, entry.hooks ⊆ shop.workplace.site.hooks.hooks
  grown : shop.entries.Pairwise fun entry later => entry.hooks ⊆ later.hooks
  ordered : ∀ entry ∈ shop.entries,
    entry.hooks.Pairwise fun one other => one.precedes other = true
  own : ∀ entry ∈ shop.entries, ∀ hook, entry.item = .introduce hook → hook ∈ entry.hooks

namespace Enrolled

variable {shop : Workshop κ} (enrolled : shop.Enrolled)

include enrolled

/-- The place in the order of registration tells hooks apart. -/
theorem nodup :
    ((shop.workplace.site.hooks.hooks ++ shop.unplaced).map Hook.sequence).Nodup := by
  rw [(enrolled.all.map Hook.sequence).nodup_iff, enrolled.sequences]
  exact List.nodup_range

/-- Work that is added is no new hook, unless it introduces one of the registry. -/
theorem add {item : WorkItem κ}
    (known : ∀ hook, item = .introduce hook → hook ∈ shop.workplace.site.hooks.hooks) :
    (shop.add item).Enrolled := by
  refine ⟨enrolled.sequences, enrolled.all, enrolled.sorted, enrolled.unpresented, ?_,
    enrolled.kept, enrolled.grown, enrolled.ordered, enrolled.own⟩
  intro hook member
  rcases List.mem_append.mp member with before | last
  · exact enrolled.introduced hook before
  · exact known hook (List.mem_singleton.mp last).symm

theorem draw (name : String) (scope : Accessor) (priority : Int) (payload : κ) :
    (shop.draw name scope priority payload).Enrolled := by
  refine ⟨?_, ?_, enrolled.sorted, enrolled.unpresented, enrolled.introduced, enrolled.kept,
    enrolled.grown, enrolled.ordered, enrolled.own⟩
  · simp [Workshop.draw, HookRegistry.draw, enrolled.sequences, List.range_succ]
  · simp only [Workshop.draw, HookRegistry.draw, ← List.append_assoc]
    exact enrolled.all.append_right _

theorem place (index : Nat) : (shop.place index).Enrolled := by
  unfold Workshop.place
  split
  · exact enrolled
  · rename_i hook found
    have perm := HookRegistry.perm_place hook shop.workplace.site.hooks.hooks
    have more : shop.workplace.site.hooks.hooks ⊆
        HookRegistry.place hook shop.workplace.site.hooks.hooks := fun other member =>
      perm.mem_iff.mpr (List.mem_cons_of_mem _ member)
    obtain ⟨inside, rfl⟩ := List.getElem?_eq_some_iff.mp found
    have member := List.getElem_mem inside
    have apart := enrolled.nodup
    rw [List.map_append, List.nodup_append] at apart
    refine ⟨enrolled.sequences, ?_, ?_, ?_, ?_, ?_, enrolled.grown, enrolled.ordered,
      enrolled.own⟩
    · refine .trans ?_ enrolled.all
      refine (perm.append_right _).trans (.trans (List.perm_middle.symm) ?_)
      exact (List.getElem_cons_eraseIdx_perm inside).append_left _
    · refine HookRegistry.pairwise_place enrolled.sorted fun other held same => ?_
      exact apart.2.2 _ (List.mem_map_of_mem held) _ (List.mem_map_of_mem member) same
    · refine List.append_subset.mpr ⟨fun other held => more (enrolled.unpresented held), ?_⟩
      intro other only
      rw [List.mem_singleton.mp only]
      exact perm.mem_iff.mpr List.mem_cons_self
    · exact fun other held => more (enrolled.introduced other held)
    · exact fun entry held other inEntry => more (enrolled.kept entry held inEntry)

theorem present (index : Nat) : (shop.present index).Enrolled := by
  unfold Workshop.present
  split
  · exact enrolled
  · rename_i hook found
    obtain ⟨inside, rfl⟩ := List.getElem?_eq_some_iff.mp found
    refine Enrolled.add ?_ fun other same => ?_
    · exact ⟨enrolled.sequences, enrolled.all, enrolled.sorted,
        fun other member => enrolled.unpresented (List.mem_of_mem_eraseIdx member),
        enrolled.introduced, enrolled.kept, enrolled.grown, enrolled.ordered, enrolled.own⟩
    · cases same
      exact enrolled.unpresented (List.getElem_mem inside)

theorem start (root : Node) : (shop.start root).Enrolled := by
  unfold Workshop.start
  split
  · exact enrolled
  · exact ⟨enrolled.sequences, enrolled.all, enrolled.sorted, enrolled.unpresented,
      enrolled.introduced, enrolled.kept, enrolled.grown, enrolled.ordered, enrolled.own⟩

/-- An item that is processed finds the registry as it is, with the hook that it introduces. -/
theorem process (orderly : shop.Orderly) {item : WorkItem κ}
    (held : shop.workplace.drainer = .holding item) : (shop.process item).Enrolled := by
  have hooks : (shop.process item).workplace.site.hooks = shop.workplace.site.hooks := by
    simp [Workshop.process, Site.process_eq_effect]
  have added : item ∈ shop.arrived := by
    simp [orderly.arrived, Workplace.waiting, held, Drainer.items]
  refine ⟨hooks ▸ enrolled.sequences, hooks ▸ enrolled.all, hooks ▸ enrolled.sorted,
    hooks ▸ enrolled.unpresented, hooks ▸ enrolled.introduced, ?_, ?_, ?_, ?_⟩
  · rw [hooks]
    refine List.forall_mem_append.mpr ⟨enrolled.kept, ?_⟩
    exact List.forall_mem_singleton.mpr (List.Subset.refl _)
  · refine List.pairwise_append.mpr ⟨enrolled.grown, List.pairwise_singleton .., ?_⟩
    intro entry member later last
    rw [List.mem_singleton.mp last]
    exact enrolled.kept entry member
  · exact List.forall_mem_append.mpr
      ⟨enrolled.ordered, List.forall_mem_singleton.mpr enrolled.sorted⟩
  · refine List.forall_mem_append.mpr ⟨enrolled.own, List.forall_mem_singleton.mpr ?_⟩
    rintro hook rfl
    exact enrolled.introduced hook added

theorem work (orderly : shop.Orderly) (callback : HookCall κ → List Update) :
    (shop.work callback).Enrolled := by
  have resting (resting : shop.workplace.drainer.isHolding = false)
      (journal : List (Happening κ)) :
      Enrolled { shop with workplace := shop.workplace.step, journal := journal } := by
    obtain ⟨-, -, -, -, hooks, -⟩ := Workplace.step_of_resting resting
    exact ⟨hooks ▸ enrolled.sequences, hooks ▸ enrolled.all, hooks ▸ enrolled.sorted,
      hooks ▸ enrolled.unpresented, hooks ▸ enrolled.introduced, hooks ▸ enrolled.kept,
      enrolled.grown, enrolled.ordered, enrolled.own⟩
  unfold Workshop.work
  split
  · refine Enrolled.add ?_ nofun
    exact ⟨enrolled.sequences, enrolled.all, enrolled.sorted, enrolled.unpresented,
      enrolled.introduced, enrolled.kept, enrolled.grown, enrolled.ordered, enrolled.own⟩
  · exact ⟨enrolled.sequences, enrolled.all, enrolled.sorted, enrolled.unpresented,
      enrolled.introduced, enrolled.kept, enrolled.grown, enrolled.ordered, enrolled.own⟩
  · split
    · rename_i item held
      exact enrolled.process orderly held
    · rename_i held
      exact resting (by rw [held]; rfl) _
    · rename_i held
      exact resting (by rw [held]; rfl) _
    · rename_i held
      exact resting (by rw [held]; rfl) _

/-- Over a whole run the hooks stay in order, by induction on its steps. -/
theorem run (orderly : shop.Orderly) (callback : HookCall κ → List Update)
    (events : List (WorkshopEvent κ)) : (shop.run callback events).Enrolled := by
  induction events generalizing shop with
  | nil => exact enrolled
  | cons event rest ih =>
      refine ih ?_ (orderly.after callback event)
      cases event with
      | submit update => exact enrolled.add nofun
      | draw name scope priority payload => exact enrolled.draw ..
      | place index => exact enrolled.place index
      | present index => exact enrolled.present index
      | start root => exact enrolled.start root
      | work => exact enrolled.work orderly callback

end Enrolled

theorem enrolled_new (name : String) (identity : Identifier) (schema : Schema) :
    (new name identity schema : Workshop κ).Enrolled where
  sequences := rfl
  all := .refl _
  sorted := .nil
  unpresented := List.nil_subset _
  introduced := nofun
  kept := nofun
  grown := .nil
  ordered := nofun
  own := nofun

/-! ### Everything is processed in the end -/

/-- How many steps of the drainer the last item still takes. -/
def toil (callback : HookCall κ → List Update) (shop : Workshop κ) : Nat :=
  shop.said.length + (shop.due.map fun call => (callback call).length + 1).sum

/-- How many steps of the drainer the next item is away from being processed, if one waits. -/
def distance (callback : HookCall κ → List Update) (shop : Workshop κ) : Nat :=
  match shop.workplace.drainer with
  | .absent => 0
  | .holding _ => 1
  | .arriving => 2
  | .finished => shop.toil callback + 2

/-- There is something to do and somebody who does it. -/
def Busy (shop : Workshop κ) : Prop :=
  shop.workplace.site.queue.isStarted = true ∧ shop.workplace.waiting ≠ []

end Workshop

/-- Whether a step is one of the drainer. -/
def WorkshopEvent.isWork : WorkshopEvent κ → Bool
  | .work => true
  | _ => false

namespace Workshop

variable {shop : Workshop κ}

/-- Work that waits at a started site has its drainer. -/
theorem Orderly.present_of_busy (orderly : shop.Orderly) (busy : shop.Busy) :
    shop.workplace.drainer ≠ .absent := by
  intro absent
  have none := (orderly.attended absent).2 busy.1
  exact busy.2 (by simp [Workplace.waiting, absent, none, Drainer.items])

/-- Work that is added while the drainer is there leaves the drainer at what it does. -/
theorem Orderly.add_of_busy (orderly : shop.Orderly) (busy : shop.Busy) (item : WorkItem κ) :
    (shop.add item).Busy ∧ (shop.add item).workplace.drainer = shop.workplace.drainer := by
  have there := orderly.present_of_busy busy
  obtain ⟨waiting, -⟩ := Workplace.waiting_offer orderly.manned item
  obtain ⟨-, -, -, started⟩ := shop.workplace.site_offer item
  refine ⟨⟨started.trans busy.1, ?_⟩, ?_⟩
  · change (shop.workplace.offer item).waiting ≠ []
    simp [waiting]
  · let queue := shop.workplace.site.queue.extend item
    change (if queue.claim.1 then _ else _) = _
    cases drains : queue.claim.1 with
    | false => rfl
    | true => exact absurd (Workplace.absent_of_offer orderly.manned item drains) there

theorem Orderly.distance_add (orderly : shop.Orderly) (busy : shop.Busy) (item : WorkItem κ)
    (callback : HookCall κ → List Update) :
    (shop.add item).distance callback = shop.distance callback := by
  simp only [distance, (orderly.add_of_busy busy item).2]
  rfl

/-- With nothing left of the last item the drainer takes the next one. -/
theorem Orderly.step_of_busy (orderly : shop.Orderly) (busy : shop.Busy)
    (resting : shop.workplace.drainer.isHolding = false) :
    ∃ item, shop.workplace.step.drainer = .holding item := by
  obtain ⟨item, rest, waits⟩ := List.exists_cons_of_ne_nil busy.2
  exact ⟨item, Workplace.holding_step orderly.attended busy.1 waits resting⟩

/-- When the drainer takes the next item, it comes closer. -/
theorem Orderly.closer_step (orderly : shop.Orderly) (busy : shop.Busy)
    (callback : HookCall κ → List Update) (resting : shop.workplace.drainer.isHolding = false)
    (far : 2 ≤ shop.distance callback) (journal : List (Happening κ)) :
    Busy { shop with workplace := shop.workplace.step, journal := journal } ∧
      distance callback { shop with workplace := shop.workplace.step, journal := journal } + 1 ≤
        shop.distance callback := by
  obtain ⟨waiting, -, -, -, -, started⟩ := Workplace.step_of_resting resting
  obtain ⟨item, held⟩ := orderly.step_of_busy busy resting
  refine ⟨⟨started.trans busy.1, waiting ▸ busy.2⟩, ?_⟩
  simpa only [distance, held] using far

/-- With a step of the drainer an item is processed, or the next one comes closer. -/
theorem Orderly.progress_work (orderly : shop.Orderly) (busy : shop.Busy)
    (callback : HookCall κ → List Update) :
    shop.entries.length < (shop.work callback).entries.length ∨
      ((shop.work callback).Busy ∧
        (shop.work callback).distance callback + 1 ≤ shop.distance callback) := by
  unfold Workshop.work
  split
  · rename_i update rest said
    have held := orderly.finished_of_left (Or.inr (by simp [said]))
    refine Or.inr ⟨((orderly.speak said).add_of_busy busy _).1, ?_⟩
    rw [(orderly.speak said).distance_add busy]
    simp only [distance, held, toil, said, List.length_cons]
    omega
  · rename_i call rest said due
    have held := orderly.finished_of_left (Or.inl (by simp [due]))
    refine Or.inr ⟨busy, ?_⟩
    simp only [distance, held, toil, said, due, List.map_cons, List.sum_cons, List.length_nil]
    omega
  · split
    · exact Or.inl (by simp [Workshop.process])
    · rename_i held
      exact Or.inr (orderly.closer_step busy callback (by rw [held]; rfl)
        (by simp [distance, held]) _)
    · rename_i held
      exact absurd held (orderly.present_of_busy busy)
    · rename_i held
      exact Or.inr (orderly.closer_step busy callback (by rw [held]; rfl)
        (by simp [distance, held]) _)

/-- Either an item is processed, or the next one comes closer with each step of the drainer and no
other step takes it further away. -/
theorem Orderly.progress (orderly : shop.Orderly) (busy : shop.Busy)
    (callback : HookCall κ → List Update) (event : WorkshopEvent κ) :
    shop.entries.length < (shop.after callback event).entries.length ∨
      ((shop.after callback event).Busy ∧
        (shop.after callback event).distance callback + event.isWork.toNat ≤
          shop.distance callback) := by
  cases event with
  | submit update =>
      refine Or.inr ⟨(orderly.add_of_busy busy _).1, ?_⟩
      exact Nat.le_of_eq (orderly.distance_add busy _ callback)
  | draw name scope priority payload => exact Or.inr ⟨busy, Nat.le_refl _⟩
  | place index =>
      simp only [Workshop.after, Workshop.place]
      split
      · exact Or.inr ⟨busy, Nat.le_refl _⟩
      · exact Or.inr ⟨busy, Nat.le_refl _⟩
  | present index =>
      simp only [Workshop.after, Workshop.present]
      split
      · exact Or.inr ⟨busy, Nat.le_refl _⟩
      · have known := orderly.enlist shop.workplace.site.hooks shop.drawn shop.unplaced
          (shop.unpresented.eraseIdx index)
        refine Or.inr ⟨(known.add_of_busy busy _).1, ?_⟩
        exact Nat.le_of_eq (known.distance_add busy _ callback)
  | start root =>
      simp only [Workshop.after, Workshop.start, busy.1, if_true]
      exact Or.inr ⟨busy, Nat.le_refl _⟩
  | work => exact orderly.progress_work busy callback

/-- What a step keeps. -/
structure Continues (shop later : Workshop κ) : Prop where
  schema : later.workplace.site.schema = shop.workplace.site.schema
  started : shop.workplace.site.queue.isStarted = true →
    later.workplace.site.queue.isStarted = true
  arrived : shop.arrived <+: later.arrived
  entries : shop.entries <+: later.entries
  /-- A site is started once. -/
  origin : shop.workplace.site.queue.isStarted = true → later.origin = shop.origin

namespace Continues

theorem refl (shop : Workshop κ) : Continues shop shop :=
  ⟨rfl, id, List.prefix_refl _, List.prefix_refl _, fun _ => rfl⟩

theorem trans {first second third : Workshop κ} (one : Continues first second)
    (two : Continues second third) : Continues first third :=
  ⟨two.schema.trans one.schema, fun started => two.started (one.started started),
    one.arrived.trans two.arrived, one.entries.trans two.entries,
    fun started => (two.origin (one.started started)).trans (one.origin started)⟩

theorem add (shop : Workshop κ) (item : WorkItem κ) : Continues shop (shop.add item) :=
  ⟨rfl, fun started => (shop.workplace.site_offer item).2.2.2.trans started,
    List.prefix_append .., List.prefix_refl _, fun _ => rfl⟩

theorem work (callback : HookCall κ → List Update) (shop : Workshop κ) :
    Continues shop (shop.work callback) := by
  have resting (resting : shop.workplace.drainer.isHolding = false)
      (journal : List (Happening κ)) :
      Continues shop { shop with workplace := shop.workplace.step, journal := journal } := by
    obtain ⟨-, -, -, schema, -, started⟩ := Workplace.step_of_resting resting
    exact ⟨schema, fun before => started.trans before, List.prefix_refl _, List.prefix_refl _,
      fun _ => rfl⟩
  unfold Workshop.work
  split
  · rename_i update rest said
    obtain ⟨schema, started, arrived, entries, origin⟩ :=
      add { shop with said := rest } (.apply update)
    exact ⟨schema, started, arrived, entries, origin⟩
  · exact ⟨rfl, id, List.prefix_refl _, List.prefix_refl _, fun _ => rfl⟩
  · split
    · rename_i item held
      refine ⟨?_, ?_, List.prefix_refl _, List.prefix_append .., fun _ => rfl⟩
      · simp [Workshop.process, Site.process_eq_effect]
      · simp [Workshop.process, Site.process_eq_effect]
    · rename_i held
      exact resting (by rw [held]; rfl) _
    · rename_i held
      exact resting (by rw [held]; rfl) _
    · rename_i held
      exact resting (by rw [held]; rfl) _

theorem after (callback : HookCall κ → List Update) (shop : Workshop κ)
    (event : WorkshopEvent κ) : Continues shop (shop.after callback event) := by
  cases event with
  | submit update => exact add shop _
  | draw name scope priority payload =>
      exact ⟨rfl, id, List.prefix_refl _, List.prefix_refl _, fun _ => rfl⟩
  | place index =>
      simp only [Workshop.after, Workshop.place]
      split
      · exact refl shop
      · exact ⟨rfl, id, List.prefix_refl _, List.prefix_refl _, fun _ => rfl⟩
  | present index =>
      simp only [Workshop.after, Workshop.present]
      split
      · exact refl shop
      · rename_i hook found
        obtain ⟨schema, started, arrived, entries, origin⟩ :=
          add { shop with unpresented := shop.unpresented.eraseIdx index } (.introduce hook)
        exact ⟨schema, started, arrived, entries, origin⟩
  | start root =>
      simp only [Workshop.after, Workshop.start]
      split
      · exact refl shop
      · rename_i asleep
        exact ⟨rfl, fun started => absurd started asleep, List.prefix_refl _, List.prefix_refl _,
          fun started => absurd started asleep⟩
  | work => exact work callback shop

theorem run (callback : HookCall κ → List Update) (shop : Workshop κ)
    (events : List (WorkshopEvent κ)) : Continues shop (shop.run callback events) := by
  induction events generalizing shop with
  | nil => exact refl shop
  | cons event rest ih => exact (after callback shop event).trans (ih _)

end Continues

/-- From one moment to a later one no hook leaves the registry, and each item that is processed in
between finds the hooks that were in it. -/
structure Finds (shop later : Workshop κ) : Prop where
  kept : shop.workplace.site.hooks.hooks ⊆ later.workplace.site.hooks.hooks
  found : ∀ entry ∈ later.entries.drop shop.entries.length,
    shop.workplace.site.hooks.hooks ⊆ entry.hooks

namespace Finds

theorem of_entries {later : Workshop κ} (entries : later.entries = shop.entries)
    (kept : shop.workplace.site.hooks.hooks ⊆ later.workplace.site.hooks.hooks) :
    shop.Finds later :=
  ⟨kept, by simp [entries]⟩

theorem work (callback : HookCall κ → List Update) (shop : Workshop κ) :
    shop.Finds (shop.work callback) := by
  have resting (resting : shop.workplace.drainer.isHolding = false)
      (journal : List (Happening κ)) :
      shop.Finds { shop with workplace := shop.workplace.step, journal := journal } := by
    obtain ⟨-, -, -, -, hooks, -⟩ := Workplace.step_of_resting resting
    exact .of_entries rfl (hooks ▸ List.Subset.refl _)
  unfold Workshop.work
  split
  · exact .of_entries rfl (List.Subset.refl _)
  · exact .of_entries rfl (List.Subset.refl _)
  · split
    · refine ⟨?_, ?_⟩
      · simp [Workshop.process, Site.process_eq_effect]
      · simp [Workshop.process]
    · rename_i held
      exact resting (by rw [held]; rfl) _
    · rename_i held
      exact resting (by rw [held]; rfl) _
    · rename_i held
      exact resting (by rw [held]; rfl) _

theorem after (callback : HookCall κ → List Update) (shop : Workshop κ)
    (event : WorkshopEvent κ) : shop.Finds (shop.after callback event) := by
  cases event with
  | submit update => exact .of_entries rfl (List.Subset.refl _)
  | draw name scope priority payload => exact .of_entries rfl (List.Subset.refl _)
  | place index =>
      simp only [Workshop.after, Workshop.place]
      split
      · exact .of_entries rfl (List.Subset.refl _)
      · refine .of_entries rfl fun other member => ?_
        exact (HookRegistry.perm_place _ _).mem_iff.mpr (List.mem_cons_of_mem _ member)
  | present index =>
      simp only [Workshop.after, Workshop.present]
      split <;> exact .of_entries rfl (List.Subset.refl _)
  | start root =>
      simp only [Workshop.after, Workshop.start]
      split <;> exact .of_entries rfl (List.Subset.refl _)
  | work => exact work callback shop

theorem run (callback : HookCall κ → List Update) (shop : Workshop κ)
    (events : List (WorkshopEvent κ)) : shop.Finds (shop.run callback events) := by
  induction events generalizing shop with
  | nil => exact .of_entries rfl (List.Subset.refl _)
  | cons event rest ih =>
      obtain ⟨kept, found⟩ := after callback shop event
      obtain ⟨later, foundLater⟩ := ih (shop.after callback event)
      refine ⟨List.Subset.trans kept later, fun entry member => ?_⟩
      -- An item is processed in the first step, or in one of the others.
      obtain ⟨more, entries⟩ := (Continues.run callback (shop.after callback event) rest).entries
      have length := (Continues.after callback shop event).entries.length_le
      change entry ∈ ((shop.after callback event).run callback rest).entries.drop _ at member
      rw [← entries, List.drop_append_of_le_length length] at member
      rw [← entries, List.drop_left] at foundLater
      rcases List.mem_append.mp member with first | other
      · exact found entry first
      · exact List.Subset.trans kept (foundLater entry other)

end Finds

section Fair

variable (callback : HookCall κ → List Update) (further : Nat → WorkshopEvent κ)

/-- A site at work after the first steps of an endless run. -/
def stage (shop : Workshop κ) (count : Nat) : Workshop κ :=
  shop.run callback ((List.range count).map further)

theorem stage_succ (shop : Workshop κ) (count : Nat) :
    shop.stage callback further (count + 1) =
      (shop.stage callback further count).after callback (further count) := by
  simp [stage, run, List.range_succ]

theorem entries_mono (shop : Workshop κ) :
    Monotone fun count => (shop.stage callback further count).entries.length := by
  refine monotone_nat_of_le_succ fun count => ?_
  rw [stage_succ]
  exact (Continues.after ..).entries.length_le

variable {callback further} (fair : ∀ count, ∃ later, count ≤ later ∧ further later = .work)

include fair

/-- As long as the drainer goes on, some item that waits is processed. By induction on how far away
it is; every step of the drainer brings it closer. -/
theorem Orderly.advances (orderly : shop.Orderly) (count : Nat)
    (busy : (shop.stage callback further count).Busy) :
    ∃ later, (shop.stage callback further count).entries.length <
      (shop.stage callback further later).entries.length := by
  have grows := entries_mono callback further shop
  induction far : (shop.stage callback further count).distance callback
    using Nat.strong_induction_on generalizing count with
  | _ far ih =>
      subst far
      by_contra stuck
      simp only [not_exists, Nat.not_lt] at stuck
      obtain ⟨turn, reached, works⟩ := fair count
      have near (index : Nat) (inside : count ≤ index) :
          (shop.stage callback further index).Busy ∧
            (shop.stage callback further index).distance callback ≤
              (shop.stage callback further count).distance callback := by
        induction index, inside using Nat.le_induction with
        | base => exact ⟨busy, Nat.le_refl _⟩
        | succ index inside before =>
            have ordered : (shop.stage callback further index).Orderly := orderly.run callback _
            rw [stage_succ]
            rcases ordered.progress before.1 callback (further index) with more | ⟨still, closer⟩
            · rw [← stage_succ] at more
              exact absurd (Nat.lt_of_le_of_lt (grows inside) more) (Nat.not_lt.mpr (stuck _))
            · exact ⟨still, by omega⟩
      obtain ⟨waits, bound⟩ := near turn reached
      have ordered : (shop.stage callback further turn).Orderly := orderly.run callback _
      rcases ordered.progress waits callback (further turn) with more | ⟨still, closer⟩
      · rw [← stage_succ] at more
        exact absurd (Nat.lt_of_le_of_lt (grows reached) more) (Nat.not_lt.mpr (stuck _))
      · rw [← stage_succ] at still closer
        simp only [works, WorkshopEvent.isWork, Bool.toNat_true] at closer
        obtain ⟨later, more⟩ := ih _ (by omega) (turn + 1) still rfl
        exact absurd (Nat.lt_of_le_of_lt (grows (Nat.le_succ_of_le reached)) more)
          (Nat.not_lt.mpr (stuck _))

/-- As long as the drainer of a started site goes on, all that was added is processed. -/
theorem Orderly.processed_of_fair (orderly : shop.Orderly)
    (started : shop.workplace.site.queue.isStarted = true) :
    ∃ count, shop.arrived <+: (shop.stage callback further count).entries.map Entry.item := by
  have enough (goal : Nat) (bound : goal ≤ shop.arrived.length) :
      ∃ count, goal ≤ (shop.stage callback further count).entries.length := by
    induction goal with
    | zero => exact ⟨0, Nat.zero_le _⟩
    | succ goal ih =>
        obtain ⟨count, done⟩ := ih (by omega)
        by_cases further' : goal + 1 ≤ (shop.stage callback further count).entries.length
        · exact ⟨count, further'⟩
        · have kept := Continues.run callback shop ((List.range count).map further)
          have ordered : (shop.stage callback further count).Orderly := orderly.run callback _
          have busy : (shop.stage callback further count).Busy := by
            refine ⟨kept.started started, fun none => ?_⟩
            have all := congrArg List.length ordered.arrived
            have more : shop.arrived.length ≤ (shop.stage callback further count).arrived.length :=
              kept.arrived.length_le
            simp only [none, List.append_nil, List.length_map] at all
            omega
          obtain ⟨later, more⟩ := orderly.advances fair count busy
          exact ⟨later, by omega⟩
  obtain ⟨count, done⟩ := enough _ (Nat.le_refl _)
  refine ⟨count, ?_⟩
  have ordered : (shop.stage callback further count).Orderly := orderly.run callback _
  have kept := Continues.run callback shop ((List.range count).map further)
  have inside : shop.arrived <+: (shop.stage callback further count).arrived := kept.arrived
  rw [ordered.arrived] at inside
  exact List.prefix_of_prefix_length_le inside (List.prefix_append ..) (by simpa using done)

end Fair

/-! ### Serial runs -/

/-- The calls of an item see the root that it leaves. -/
theorem root_of_effect {schema : Schema} {hooks : List (Hook κ)} {before : Node}
    {item : WorkItem κ} {call : HookCall κ}
    (member : call ∈ (item.effect schema hooks before).2) :
    call.root = (item.effect schema hooks before).1 := by
  cases item with
  | introduce hook =>
      obtain ⟨path, -, rfl⟩ := List.mem_map.mp member
      rfl
  | apply update =>
      rcases applied : update.operation.apply schema before with error | _ | root
      · simp [WorkItem.effect, applied] at member
      · simp [WorkItem.effect, applied] at member
      · simp only [WorkItem.effect, applied, List.mem_flatMap, List.mem_map] at member ⊢
        obtain ⟨hook, -, path, -, rfl⟩ := member
        rfl

/-- Runs are serial, whatever the callbacks submit and in whatever order updates, registrations and
the start come in. The items that were added have been processed once each, in their order, but for
those that still wait. What was done is the chronicle of these items, but for what is still to be
done for the last one: each item is processed, then its calls are made, then the next is processed.
The hooks of an item are those that were in the registry by then, and those are the registered ones
whose turn to be put there has come, each with its place in the order of registration: so later
items find those of earlier ones and all that came in between, and an item that introduces a hook
finds that hook. They are in the order of their priorities and, among equals, of registration, and
each call sees the root that its own item has left. And while the drainer of a started site goes
on, all that was added is processed. -/
theorem serialized (callback : HookCall κ → List Update) (name : String) (identity : Identifier)
    (schema : Schema) (events : List (WorkshopEvent κ)) :
    let shop := (new name identity schema).run callback events
    shop.arrived = shop.entries.map Entry.item ++ shop.workplace.waiting ∧
      shop.workplace.site.root = rootAfter schema shop.origin shop.entries ∧
      shop.journal ++ shop.outstanding = chronicle schema shop.origin shop.entries ∧
      shop.drawn.map Hook.sequence = List.range shop.drawn.length ∧
      (shop.workplace.site.hooks.hooks ++ shop.unplaced).Perm shop.drawn ∧
      (∀ entry ∈ shop.entries, entry.hooks ⊆ shop.workplace.site.hooks.hooks ∧
        ∀ hook, entry.item = .introduce hook → hook ∈ entry.hooks) ∧
      (shop.entries.Pairwise fun entry later => entry.hooks ⊆ later.hooks) ∧
      (∀ early late, events = early ++ late →
        let before := (new name identity schema).run callback early
        ∀ entry ∈ shop.entries.drop before.entries.length,
          before.workplace.site.hooks.hooks ⊆ entry.hooks) ∧
      (∀ entry ∈ shop.entries, entry.hooks.Pairwise fun hook other =>
        other.priority < hook.priority ∨
          hook.priority = other.priority ∧ hook.sequence < other.sequence) ∧
      (∀ front entry rest, shop.entries = front ++ entry :: rest →
        ∀ call ∈ (entry.item.effect schema entry.hooks (rootAfter schema shop.origin front)).2,
          call.root = rootAfter schema shop.origin (front ++ [entry])) ∧
      (shop.workplace.site.queue.isStarted = true →
        ∀ further : Nat → WorkshopEvent κ,
          (∀ count, ∃ later, count ≤ later ∧ further later = .work) →
            ∃ count, shop.arrived <+:
              (shop.run callback ((List.range count).map further)).entries.map Entry.item) := by
  intro shop
  have orderly : shop.Orderly := (orderly_new name identity schema).run callback events
  have enrolled : shop.Enrolled :=
    (enrolled_new name identity schema).run (orderly_new name identity schema) callback events
  have same : shop.workplace.site.schema = schema :=
    (Continues.run callback (new name identity schema) events).schema
  have places : shop.drawn.map Hook.sequence = List.range shop.drawn.length := by
    have length := congrArg List.length enrolled.sequences
    rw [List.length_map, List.length_range] at length
    rw [enrolled.sequences, length]
  refine ⟨orderly.arrived, same ▸ orderly.root, same ▸ orderly.journal, places, enrolled.all,
    fun entry member => ⟨enrolled.kept entry member, enrolled.own entry member⟩, enrolled.grown,
    ?_, ?_, ?_, ?_⟩
  · rintro early late rfl
    have onward := Finds.run callback ((new name identity schema).run callback early) late
    rw [run, run, ← List.foldl_append] at onward
    exact onward.found
  · intro entry member
    exact (enrolled.ordered entry member).imp Hook.precedes_iff.mp
  · intro front entry rest split call member
    rw [rootAfter_append]
    exact root_of_effect member
  · exact fun started further fair => orderly.processed_of_fair fair started

end Workshop

end StateTree
