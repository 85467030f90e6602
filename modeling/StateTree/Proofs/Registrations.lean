/-
Module: StateTree.Proofs.Registrations
Purpose: Hooks stand in the registry in the order they run in, whoever registers them and when. A
  registration draws its place in the order of registration first and puts its hook in the registry
  later, and any steps of other registrations may come in between; so a hook may be put in after
  others that have drawn their places behind it.
-/
import Mathlib.Data.List.Induction
import Mathlib.Data.List.Perm.Basic
import StateTree.Site.Hook

namespace StateTree

variable {κ : Type}

/-! ### The order of the registry -/

namespace Hook

theorem precedes_iff {hook other : Hook κ} :
    hook.precedes other = true ↔ other.priority < hook.priority ∨
      hook.priority = other.priority ∧ hook.sequence < other.sequence := by
  simp [precedes]

theorem precedes_trans {first second third : Hook κ} (one : first.precedes second = true)
    (two : second.precedes third = true) : first.precedes third = true := by
  rw [precedes_iff] at one two ⊢
  omega

/-- Of two hooks that were registered one after the other, one precedes the other. -/
theorem precedes_of_not {hook other : Hook κ} (different : other.sequence ≠ hook.sequence)
    (not : ¬ hook.precedes other = true) : other.precedes hook = true := by
  rw [precedes_iff] at not ⊢
  omega

end Hook

namespace HookRegistry

/-- A hook that is placed is one more. -/
theorem perm_place (hook : Hook κ) (hooks : List (Hook κ)) :
    (place hook hooks).Perm (hook :: hooks) := by
  induction hooks with
  | nil => exact .refl _
  | cons other rest ih =>
      rw [place]
      split
      · exact .refl _
      · exact (ih.cons other).trans (.swap ..)

/-- Placing a hook keeps the order. -/
theorem pairwise_place {hook : Hook κ} {hooks : List (Hook κ)}
    (sorted : hooks.Pairwise fun one other => one.precedes other = true)
    (different : ∀ other ∈ hooks, other.sequence ≠ hook.sequence) :
    (place hook hooks).Pairwise fun one other => one.precedes other = true := by
  induction hooks with
  | nil => exact List.pairwise_singleton ..
  | cons other rest ih =>
      obtain ⟨first, sorted'⟩ := List.pairwise_cons.mp sorted
      obtain ⟨apart, different⟩ := List.forall_mem_cons.mp different
      rw [place]
      split
      · rename_i before
        refine List.pairwise_cons.mpr ⟨List.forall_mem_cons.mpr ⟨before, ?_⟩, sorted⟩
        exact fun later member => Hook.precedes_trans before (first later member)
      · rename_i behind
        refine List.pairwise_cons.mpr ⟨fun later member => ?_, ih sorted' different⟩
        rcases List.mem_cons.mp ((perm_place hook rest).mem_iff.mp member) with rfl | member
        · exact Hook.precedes_of_not apart behind
        · exact first later member

end HookRegistry

/-! ### Registrations -/

/-- A hook that is to be registered, without a place in the order of registration. -/
structure Candidate (κ : Type) where
  name : String
  priority : Int
  scope : Accessor
  payload : κ

/-- The hook of a candidate that has drawn a place. -/
def Candidate.hook (candidate : Candidate κ) (sequence : Nat) : Hook κ :=
  ⟨candidate.name, candidate.priority, sequence, candidate.scope, candidate.payload⟩

/-- How far a registration has come. -/
inductive Registration (κ : Type) where
  | announced (candidate : Candidate κ)
  /-- Its place is drawn, and its hook is not in the registry yet. -/
  | drawn (hook : Hook κ)
  | entered (hook : Hook κ)

namespace Registration

/-- The hook, once its place is drawn. -/
def hook? : Registration κ → Option (Hook κ)
  | .announced _ => none
  | .drawn hook | .entered hook => some hook

/-- The hook that was put in the registry. -/
def entered? : Registration κ → Option (Hook κ)
  | .entered hook => some hook
  | _ => none

/-- What becomes of a candidate in a number of steps. The first draws its place, the second puts its
hook in the registry, and nothing is left for others to do. -/
inductive Reached (candidate : Candidate κ) (steps : Nat) : Registration κ → Prop where
  | announced (none : steps = 0) : Reached candidate steps (.announced candidate)
  | drawn {sequence : Nat} (one : steps = 1) :
      Reached candidate steps (.drawn (candidate.hook sequence))
  | entered {sequence : Nat} (both : 2 ≤ steps) :
      Reached candidate steps (.entered (candidate.hook sequence))

/-- The hook is in the registry when both steps were taken. -/
theorem Reached.entered_iff {candidate : Candidate κ} {steps : Nat} {registration : Registration κ}
    (reached : registration.Reached candidate steps) :
    (∃ sequence, registration = .entered (candidate.hook sequence)) ↔ 2 ≤ steps := by
  cases reached with
  | announced none => simp [none]
  | drawn one => simp [one]
  | entered both => exact iff_of_true ⟨_, rfl⟩ both

end Registration

/-- A registry, and the registrations at it. -/
structure Enrolment (κ : Type) where
  registry : HookRegistry κ
  registrations : List (Registration κ)

namespace Enrolment

/-- A registry without hooks, at which candidates are to be registered. -/
def new (candidates : List (Candidate κ)) : Enrolment κ :=
  ⟨.empty, candidates.map .announced⟩

/-- The registration of a number takes its next step. -/
def after (enrolment : Enrolment κ) (number : Nat) : Enrolment κ :=
  match enrolment.registrations[number]? with
  | some (.announced candidate) =>
      let (sequence, registry) := enrolment.registry.draw
      ⟨registry, enrolment.registrations.set number (.drawn (candidate.hook sequence))⟩
  | some (.drawn hook) =>
      ⟨enrolment.registry.insert hook, enrolment.registrations.set number (.entered hook)⟩
  | some (.entered _) | none => enrolment

/-- Registrations take steps in the order of a schedule. -/
def run (enrolment : Enrolment κ) (schedule : List Nat) : Enrolment κ :=
  schedule.foldl after enrolment

/-- The hooks whose places are drawn. -/
def drawn (enrolment : Enrolment κ) : List (Hook κ) :=
  enrolment.registrations.filterMap Registration.hook?

/-- The hooks that were put in the registry. -/
def entered (enrolment : Enrolment κ) : List (Hook κ) :=
  enrolment.registrations.filterMap Registration.entered?

/-- What holds of a registry after each step of a schedule. -/
structure Orderly (candidates : List (Candidate κ)) (schedule : List Nat)
    (enrolment : Enrolment κ) : Prop where
  held : enrolment.registry.hooks.Perm enrolment.entered
  distinct : (enrolment.drawn.map Hook.sequence).Nodup
  /-- No place is given out twice. -/
  below : ∀ hook ∈ enrolment.drawn, hook.sequence < enrolment.registry.drawn
  sorted : enrolment.registry.hooks.Pairwise fun hook other => hook.precedes other = true
  length : enrolment.registrations.length = candidates.length
  reached : ∀ (number : Nat) (candidate : Candidate κ) (registration : Registration κ),
    candidates[number]? = some candidate → enrolment.registrations[number]? = some registration →
      registration.Reached candidate (schedule.count number)

/-! ### Every step keeps the order -/

section Registered

variable {β : Type} {registrations : List (Registration κ)} {number : Nat}
  {before : Registration κ} (found : registrations[number]? = some before)
  (shows : Registration κ → Option β) (now : Registration κ)

include found

/-- What a registration shows, and did not show before, is one more. -/
theorem perm_filterMap_set {shown : β}
    (hidden : shows before = none) (appears : shows now = some shown) :
    ((registrations.set number now).filterMap shows).Perm
      (shown :: registrations.filterMap shows) := by
  induction registrations generalizing number with
  | nil => cases found
  | cons first rest ih =>
      cases number with
      | zero =>
          cases found
          simp [hidden, appears]
      | succ number =>
          have later := ih found
          cases known : shows first with
          | none => simpa [known] using later
          | some other => simpa [known] using (later.cons other).trans (.swap ..)

/-- What a registration goes on to show stays as it is. -/
theorem filterMap_set_of_eq (same : shows now = shows before) :
    (registrations.set number now).filterMap shows = registrations.filterMap shows := by
  induction registrations generalizing number with
  | nil => cases found
  | cons first rest ih =>
      cases number with
      | zero =>
          cases found
          simp [List.filterMap_cons, same]
      | succ number => simp [List.filterMap_cons, ih found]

end Registered

/-- A hook that was put in the registry has drawn its place. -/
theorem entered_sublist (registrations : List (Registration κ)) :
    (registrations.filterMap Registration.entered?).Sublist
      (registrations.filterMap Registration.hook?) := by
  induction registrations with
  | nil => exact .slnil
  | cons registration rest ih =>
      cases registration with
      | announced candidate => exact ih
      | drawn hook => exact ih.cons hook
      | entered hook => exact ih.cons_cons hook

theorem orderly_new (candidates : List (Candidate κ)) : (new candidates).Orderly candidates [] := by
  have drawn : (new candidates).drawn = [] := by simp [Enrolment.drawn, new, Registration.hook?]
  have entered : (new candidates).entered = [] := by
    simp [Enrolment.entered, new, Registration.entered?]
  refine ⟨?_, ?_, ?_, .nil, List.length_map .., ?_⟩
  · rw [entered]
    exact .refl _
  · simp [drawn]
  · simp [drawn]
  · intro number candidate registration named found
    obtain rfl : Registration.announced candidate = registration := by
      simpa [new, named] using found
    exact .announced rfl

namespace Orderly

variable {candidates : List (Candidate κ)} {schedule : List Nat} {enrolment : Enrolment κ}
  (orderly : enrolment.Orderly candidates schedule) {number : Nat}

include orderly

/-- Each registration has the candidate of its number, and has taken its own steps. -/
theorem exists_candidate {registration : Registration κ}
    (found : enrolment.registrations[number]? = some registration) :
    ∃ candidate, candidates[number]? = some candidate ∧
      registration.Reached candidate (schedule.count number) := by
  have inside : number < candidates.length :=
    orderly.length ▸ (List.getElem?_eq_some_iff.mp found).1
  have named := List.getElem?_eq_getElem inside
  exact ⟨_, named, orderly.reached number _ registration named found⟩

/-- Where one registration takes a step, each has taken its own steps. -/
theorem reached_set {candidate : Candidate κ} {now : Registration κ}
    (named : candidates[number]? = some candidate)
    (goes : now.Reached candidate (schedule.count number + 1)) (other : Nat)
    (theirs : Candidate κ) (registration : Registration κ)
    (namedOther : candidates[other]? = some theirs)
    (found : (enrolment.registrations.set number now)[other]? = some registration) :
    registration.Reached theirs ((schedule ++ [number]).count other) := by
  by_cases same : number = other
  · subst same
    cases named.symm.trans namedOther
    have inside : number < enrolment.registrations.length :=
      orderly.length ▸ (List.getElem?_eq_some_iff.mp named).1
    rw [List.getElem?_set_self inside] at found
    cases found
    simpa using goes
  · rw [List.getElem?_set_ne same] at found
    have before := orderly.reached other theirs registration namedOther found
    simpa [List.count_singleton, same] using before

/-- A registration draws the next place. -/
theorem draw {before : Candidate κ}
    (found : enrolment.registrations[number]? = some (.announced before)) :
    Orderly candidates (schedule ++ [number])
      ⟨enrolment.registry.draw.2,
        enrolment.registrations.set number (.drawn (before.hook enrolment.registry.draw.1))⟩ := by
  obtain ⟨_, named, ⟨none⟩⟩ := orderly.exists_candidate found
  have more := perm_filterMap_set found Registration.hook?
    (.drawn (before.hook enrolment.registry.drawn)) rfl rfl
  refine ⟨?_, ?_, ?_, orderly.sorted, ?_, orderly.reached_set named ?_⟩
  · have same := filterMap_set_of_eq found Registration.entered?
      (.drawn (before.hook enrolment.registry.drawn)) rfl
    exact orderly.held.trans (.of_eq same.symm)
  · refine (more.map Hook.sequence).nodup_iff.mpr (List.nodup_cons.mpr ⟨?_, orderly.distinct⟩)
    intro taken
    obtain ⟨hook, member, same⟩ := List.mem_map.mp taken
    exact absurd same (Nat.ne_of_lt (orderly.below hook member))
  · intro hook member
    rcases List.mem_cons.mp (more.mem_iff.mp member) with rfl | earlier
    · exact Nat.lt_succ_self _
    · exact Nat.lt_succ_of_lt (orderly.below hook earlier)
  · exact List.length_set.trans orderly.length
  · exact .drawn (congrArg Nat.succ none)

/-- A hook whose place was drawn is put in the registry, behind all that precede it. -/
theorem enter {hook : Hook κ} (found : enrolment.registrations[number]? = some (.drawn hook)) :
    Orderly candidates (schedule ++ [number])
      ⟨enrolment.registry.insert hook, enrolment.registrations.set number (.entered hook)⟩ := by
  obtain ⟨candidate, named, _ | @⟨sequence, one⟩⟩ := orderly.exists_candidate found
  have same := filterMap_set_of_eq found Registration.hook? (.entered (candidate.hook sequence)) rfl
  have more := perm_filterMap_set found Registration.entered?
    (.entered (candidate.hook sequence)) rfl rfl
  have placed := HookRegistry.perm_place (candidate.hook sequence) enrolment.registry.hooks
  refine ⟨placed.trans ((orderly.held.cons _).trans more.symm), ?_, ?_, ?_, ?_,
    orderly.reached_set named ?_⟩
  · rw [drawn, same]
    exact orderly.distinct
  · rw [drawn, same]
    exact orderly.below
  · refine HookRegistry.pairwise_place orderly.sorted fun other member taken => ?_
    have distinct := orderly.distinct
    rw [drawn, ← same] at distinct
    have apart := distinct.sublist ((entered_sublist _).map Hook.sequence)
    rw [(more.map Hook.sequence).nodup_iff, List.map_cons, List.nodup_cons] at apart
    exact apart.1 (List.mem_map.mpr ⟨other, orderly.held.mem_iff.mp member, taken⟩)
  · exact List.length_set.trans orderly.length
  · exact .entered (Nat.succ_le_succ (Nat.le_of_eq one.symm))

/-- A registration that is over has nothing left to do. -/
theorem rest {hook : Hook κ} (found : enrolment.registrations[number]? = some (.entered hook)) :
    enrolment.Orderly candidates (schedule ++ [number]) := by
  obtain ⟨candidate, named, _ | _ | @⟨sequence, both⟩⟩ := orderly.exists_candidate found
  have goes : (Registration.entered (candidate.hook sequence)).Reached candidate
      (schedule.count number + 1) := .entered (Nat.le_succ_of_le both)
  obtain ⟨inside, same⟩ := List.getElem?_eq_some_iff.mp found
  have further := orderly.reached_set named goes
  rw [← same, List.set_getElem_self] at further
  exact { orderly with reached := further }

/-- Nobody steps where no registration has the number. -/
theorem skip (beyond : enrolment.registrations[number]? = none) :
    enrolment.Orderly candidates (schedule ++ [number]) := by
  refine { orderly with reached := fun other candidate registration named found => ?_ }
  have different : number ≠ other := by
    rintro rfl
    cases beyond.symm.trans found
  have before := orderly.reached other candidate registration named found
  simpa [List.count_singleton, different] using before

/-- The registry is in order after the next step, whichever registration takes it. -/
theorem after (number : Nat) :
    (enrolment.after number).Orderly candidates (schedule ++ [number]) := by
  unfold Enrolment.after
  split
  · exact orderly.draw ‹_›
  · exact orderly.enter ‹_›
  · exact orderly.rest ‹_›
  · exact orderly.skip ‹_›

end Orderly

/-- The registry is in order after any schedule. -/
theorem orderly_run (candidates : List (Candidate κ)) (schedule : List Nat) :
    ((new candidates).run schedule).Orderly candidates schedule := by
  induction schedule using List.reverseRecOn with
  | nil => exact orderly_new candidates
  | append_singleton schedule number ih =>
      rw [run, List.foldl_append]
      exact ih.after number

end Enrolment

/-- However the steps of registrations come after one another, the registry holds each hook that was
put in it once, those of a higher priority first and among equals those of an earlier place in the
order of registration. No place is given out twice, and what was put in are the hooks of the
registrations that have taken both of their steps, as they were to be registered. -/
theorem HookRegistry.in_dispatch_order (candidates : List (Candidate κ)) (schedule : List Nat) :
    let enrolment := (Enrolment.new candidates).run schedule
    enrolment.registry.hooks.Perm enrolment.entered ∧
      (enrolment.registry.hooks.map Hook.sequence).Nodup ∧
      (enrolment.registry.hooks.Pairwise fun hook other =>
        other.priority < hook.priority ∨
          hook.priority = other.priority ∧ hook.sequence < other.sequence) ∧
      ∀ (number : Nat) (candidate : Candidate κ), candidates[number]? = some candidate →
        ((∃ sequence,
            enrolment.registrations[number]? = some (.entered (candidate.hook sequence))) ↔
          2 ≤ schedule.count number) := by
  intro enrolment
  have orderly : enrolment.Orderly candidates schedule := Enrolment.orderly_run candidates schedule
  refine ⟨orderly.held, ?_, orderly.sorted.imp Hook.precedes_iff.mp, ?_⟩
  · have distinct := orderly.distinct.sublist
      ((Enrolment.entered_sublist enrolment.registrations).map Hook.sequence)
    exact (orderly.held.map Hook.sequence).nodup_iff.mpr distinct
  · intro number candidate named
    have inside : number < enrolment.registrations.length :=
      orderly.length ▸ (List.getElem?_eq_some_iff.mp named).1
    have found := List.getElem?_eq_getElem inside
    have reached := orderly.reached number candidate _ named found
    rw [found, ← reached.entered_iff]
    exact exists_congr fun sequence => Option.some_inj

/-- A hook that has drawn its place first precedes one that was put in before it. -/
example :
    let hook (name : String) : Candidate Unit := ⟨name, 5, ⟨.root, [], .bool⟩, ()⟩
    ((Enrolment.new [hook "first", hook "second"]).run [0, 1, 1, 0]).registry.hooks.map Hook.name =
      ["first", "second"] := rfl

end StateTree
