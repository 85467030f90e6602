/-
Module: StateTree.Proofs.LocalSite
Purpose: A site of a deployment with nothing in front of it. Whatever is done with it, and whatever
  its hooks submit, it is a site at work: its work is serial, and the runs of hooks on record are
  the calls of the items that it has processed.
-/
import StateTree.Deployment.Build
import StateTree.Proofs.Attempts
import StateTree.Proofs.Serialization
import StateTree.Proofs.Typing

namespace StateTree

/-! ### What hooks put on record -/

/-- A run of a hook on record. -/
structure HookRun where
  site : String
  hook : String
  path : Path
  value : Except ReadError (Option Node)

/-- The run that an event is about. -/
def HookEvent.run? : HookEvent → Option HookRun
  | .ran site hook path value _ => some ⟨site, hook, path, value⟩
  | .acted .. => none

/-- The run that a plan puts on record for a call, which reads the root of the call. There is none
where the location is no instance of the scope. -/
def HookPlan.run? (plan : HookPlan) (call : HookCall Nat) : Option HookRun :=
  match plan.scope.boundBy call.path with
  | .error _ => none
  | .ok reference =>
      some ⟨plan.site, plan.name, call.path, Reference.orAbsent (reference.valueAt call.root)⟩

namespace Reference

/-- A location of a site is bound to one of the same site. -/
theorem site_of_boundBy {template reference : Reference} {path : Path}
    (bound : template.boundBy path = .ok reference) : reference.site = template.site := by
  unfold boundBy boundTo at bound
  repeat' split at bound
  all_goals try cases bound
  obtain ⟨accessor, -, same⟩ := bind_eq_ok_iff.mp bound
  cases same
  rfl

/-- Where a snapshot is pinned anew, it is the one that is read. -/
theorem value_of_replace (reference : Reference) (bindings : Bindings) (root : Node) {site : Nat}
    (own : reference.site = site) :
    reference.value (bindings.replace site root).2 = reference.valueAt root := by
  have pinned : (bindings.replace site root).2.root? site = some root :=
    Keyed.lookup_put_self site root bindings.roots
  rw [value, own, pinned]

end Reference

namespace Deployment

/-- The runs on record, in their order. -/
def runs (deployment : Deployment) : List HookRun :=
  deployment.events.reverse.filterMap HookEvent.run?

/-- The run that is put on record for a call. -/
def run? (deployment : Deployment) (call : HookCall Nat) : Option HookRun :=
  deployment.plans[call.hook.payload]?.bind fun plan => plan.run? call

/-- What an action spends does not show in runs. -/
theorem run?_spend {deployment : Deployment} {number : Nat} {plan : HookPlan}
    (there : deployment.plans[number]? = some plan) (index : Nat) :
    { deployment with plans := deployment.plans.set number (plan.spend index) }.run? =
      deployment.run? := by
  funext call
  simp only [run?, List.getElem?_set]
  split
  · rename_i same
    rw [← same, there, if_pos (List.getElem?_eq_some_iff.mp there).1]
    rfl
  · rfl

end Deployment

/-! ### The site of a deployment -/

namespace Workshop

/-- All calls that were made. -/
def calls {κ : Type} (shop : Workshop κ) : List (HookCall κ) :=
  shop.journal.filterMap Happening.call?

/-- One site at work can come to be the other. What callbacks submit counts as submitted like
anything else. -/
def Leads {κ : Type} (shop later : Workshop κ) : Prop :=
  ∃ events, shop.run (fun _ => []) events = later

/-- The site of a deployment is the one at work. Its hooks submit to the site, there are no hooks
but those of the site, and the runs on record since some that were there before are those of the
calls. -/
structure Reflects (shop : Workshop Nat) (number : Nat) (past : List HookRun)
    (deployment : Deployment) : Prop where
  station : ∃ standard,
    deployment.stations[number]? = some ⟨shop.workplace.site, some (.site number standard)⟩
  own : ∀ plan ∈ deployment.plans, plan.scope.site = number
  planned : ∀ call ∈ shop.calls, call.hook.payload < deployment.plans.length
  runs : deployment.runs = past ++ shop.calls.filterMap deployment.run?
  silent : shop.said = []

/-- The site at work can come to be that of a deployment, with the drainer at something, and with
the same calls due. -/
def Attains (shop : Workshop Nat) (number : Nat) (past : List HookRun) (drainer : Drainer Nat)
    (deployment : Deployment) : Prop :=
  ∃ later, shop.Leads later ∧ later.Reflects number past deployment ∧
    later.workplace.drainer = drainer ∧ later.due = shop.due

namespace Leads

variable {κ : Type} {shop middle later : Workshop κ}

theorem refl (shop : Workshop κ) : shop.Leads shop := ⟨[], rfl⟩

theorem single (event : WorkshopEvent κ) (same : shop.after (fun _ => []) event = later) :
    shop.Leads later := ⟨[event], same⟩

theorem trans (first : shop.Leads middle) (second : middle.Leads later) : shop.Leads later := by
  obtain ⟨events, rfl⟩ := first
  obtain ⟨more, rfl⟩ := second
  exact ⟨events ++ more, List.foldl_append⟩

theorem orderly (leads : shop.Leads later) (orderly : shop.Orderly) : later.Orderly := by
  obtain ⟨events, rfl⟩ := leads
  exact orderly.run _ events

theorem continues (leads : shop.Leads later) : shop.Continues later := by
  obtain ⟨events, rfl⟩ := leads
  exact .run _ shop events

end Leads

variable {shop : Workshop Nat} {number : Nat} {past : List HookRun} {before after : Deployment}

theorem Attains.refl (reflects : shop.Reflects number past before) :
    shop.Attains number past shop.workplace.drainer before :=
  ⟨shop, .refl shop, reflects, rfl, rfl⟩

theorem Attains.onward {middle : Workshop Nat} {drainer : Drainer Nat} (leads : shop.Leads middle)
    (due : middle.due = shop.due) (attains : middle.Attains number past drainer after) :
    shop.Attains number past drainer after := by
  obtain ⟨later, onward, reflects, ends, same⟩ := attains
  exact ⟨later, leads.trans onward, reflects, ends, same.trans due⟩

namespace Reflects

/-- Only sites, plans and events count. -/
theorem congr (reflects : shop.Reflects number past before)
    (stations : after.stations = before.stations) (plans : after.plans = before.plans)
    (events : after.events = before.events) : shop.Reflects number past after := by
  have same : after.run? = before.run? := by
    funext call
    rw [Deployment.run?, Deployment.run?, plans]
  refine ⟨?_, ?_, ?_, ?_, reflects.silent⟩
  · rw [stations]
    exact reflects.station
  · rw [plans]
    exact reflects.own
  · rw [plans]
    exact reflects.planned
  · rw [same, Deployment.runs, events]
    exact reflects.runs

/-- The site is put in the place of its former state. -/
theorem put (reflects : shop.Reflects number past before) {changed : Workshop Nat}
    {site : Site Nat} (workplace : changed.workplace.site = site)
    (calls : changed.calls = shop.calls) (silent : changed.said = []) :
    changed.Reflects number past
      { before with
        stations :=
          before.stations.modify number fun station => { station with site := site } } := by
  obtain ⟨standard, there⟩ := reflects.station
  refine ⟨⟨standard, ?_⟩, reflects.own, calls ▸ reflects.planned, calls ▸ reflects.runs, silent⟩
  rw [workplace, List.getElem?_modify, there]
  simp

/-- An action is spent. -/
theorem spend (reflects : shop.Reflects number past before) {place : Nat} {plan : HookPlan}
    (there : before.plans[place]? = some plan) (index : Nat) :
    shop.Reflects number past
      { before with plans := before.plans.set place (plan.spend index) } := by
  refine ⟨reflects.station, fun other member => ?_, ?_, ?_, reflects.silent⟩
  · rcases List.mem_or_eq_of_mem_set member with old | rfl
    · exact reflects.own other old
    · exact reflects.own plan (List.mem_of_getElem? there)
  · simpa using reflects.planned
  · rw [Deployment.run?_spend there]
    exact reflects.runs

/-- That an action was taken is put on record. -/
theorem acted (reflects : shop.Reflects number past before) (hook action : String)
    (result : Except PipelineError Unit) :
    shop.Reflects number past
      { before with events := .acted hook action result :: before.events } := by
  refine ⟨reflects.station, reflects.own, reflects.planned, .trans ?_ reflects.runs,
    reflects.silent⟩
  simp [Deployment.runs, HookEvent.run?]

/-- A hook of the site is planned, for which there were no calls yet. -/
theorem plan (reflects : shop.Reflects number past before) {plan : HookPlan}
    (own : plan.scope.site = number) :
    shop.Reflects number past { before with plans := before.plans ++ [plan] } := by
  refine ⟨reflects.station, ?_, fun call made => ?_, ?_, reflects.silent⟩
  · exact List.forall_mem_append.mpr ⟨reflects.own, List.forall_mem_singleton.mpr own⟩
  · rw [List.length_append]
    exact Nat.lt_add_right 1 (reflects.planned call made)
  · refine reflects.runs.trans (congrArg _ (List.filterMap_congr fun call made => ?_))
    rw [Deployment.run?, Deployment.run?, List.getElem?_append_left (reflects.planned call made)]

/-- The next call is made, and the run that comes of it put on record. -/
theorem call (reflects : shop.Reflects number past before) {call : HookCall Nat}
    (rest : List (HookCall Nat)) {plan : HookPlan}
    (there : before.plans[call.hook.payload]? = some plan) (events : List HookEvent)
    (recorded : (events.reverse.filterMap HookEvent.run?) = (plan.run? call).toList) :
    Workshop.Reflects
      { shop with
        due := rest
        said := []
        journal := shop.journal ++ [.called call] }
      number past { before with events := events ++ before.events } := by
  refine ⟨reflects.station, reflects.own, ?_, ?_, rfl⟩
  · intro other made
    simp only [calls, List.filterMap_append, List.mem_append] at made
    rcases made with old | last
    · exact reflects.planned other old
    · obtain rfl : other = call := by simpa [Happening.call?] using last
      exact (List.getElem?_eq_some_iff.mp there).1
  · have run : before.run? call = plan.run? call := by
      rw [Deployment.run?, there]
      rfl
    have last : ([.called call] : List (Happening Nat)).filterMap Happening.call? = [call] := rfl
    have made : [call].filterMap before.run? = (plan.run? call).toList := by
      rw [List.filterMap_cons, run]
      cases plan.run? call <;> rfl
    have recalled : { before with events := events ++ before.events }.run? = before.run? := rfl
    have runs := reflects.runs
    rw [Deployment.runs, calls] at runs
    rw [Deployment.runs, recalled, calls, List.reverse_append, List.filterMap_append,
      List.filterMap_append, List.filterMap_append, last, made, recorded, runs, List.append_assoc]

end Reflects

end Workshop

/-! ### Calls -/

/-- What calls do to a site of a deployment. -/
structure Caller.Serves (number : Nat) (next : Caller) : Prop where
  submit : ∀ {shop : Workshop Nat} {past standard update before result after},
    shop.Orderly → shop.Reflects number past before →
      (next.submit (.site number standard) update).run before = some (result, after) →
        (shop.add (.apply update)).Attains number past shop.workplace.drainer after
  flush : ∀ {standard before result after},
    (next.flush (.site number standard)).run before = some (result, after) → after = before
  root : ∀ {standard before result after},
    (next.initialRoot (.site number standard)).run before = some (result, after) →
      after = before ∧ result.toOption = standard
  drain : ∀ {shop : Workshop Nat} {past before after},
    shop.Orderly → shop.Reflects number past before → shop.workplace.drainer = .arriving →
      next.perform (.drain number) before = some ((), after) →
        shop.Attains number past .absent after

namespace Caller.Serves

open Workshop

variable {next : Caller} {number : Nat} {past : List HookRun} {before after : Deployment}
  {shop : Workshop Nat}

/-- A change to a site, with the work that it leads to. -/
theorem changeSite (serves : next.Serves number) {alter : Site Nat → Bool × Site Nat}
    {changed : Workshop Nat} (orderly : changed.Orderly)
    (reflects : shop.Reflects number past before)
    (workplace : changed.workplace = shop.workplace.change (alter shop.workplace.site))
    (journal : changed.journal = shop.journal) (said : changed.said = shop.said)
    (unmanned : (alter shop.workplace.site).1 = true → shop.workplace.drainer = .absent)
    (ran : Deployment.changeSite next number alter before = some ((), after)) :
    changed.Attains number past shop.workplace.drainer after := by
  obtain ⟨own, _, looked, ran⟩ := Run.bind_cases ran
  obtain ⟨rfl, found⟩ := Deployment.station_cases looked
  obtain ⟨standard, there⟩ := reflects.station
  cases found.symm.trans there
  obtain ⟨⟨⟩, _, put, ran⟩ := Run.bind_cases ran
  cases put
  have put : changed.Reflects number past _ :=
    reflects.put (congrArg Workplace.site workplace)
      (congrArg (List.filterMap Happening.call?) journal) (said.trans reflects.silent)
  have drainer := congrArg Workplace.drainer workplace
  dsimp only at ran
  split at ran
  · rename_i drains
    rw [unmanned drains]
    refine serves.drain orderly put ?_ ran
    rw [drainer, Workplace.change, if_pos drains]
  · rename_i stays
    cases ran
    have same : changed.workplace.drainer = shop.workplace.drainer := by
      rw [drainer, Workplace.change, if_neg stays]
    exact same ▸ .refl put

section Hooks

variable (serves : next.Serves number) {standard : Option Node}

include serves

theorem takeActions {plan : Nat} {path : Path} {indices : List Nat} (orderly : shop.Orderly)
    (reflects : shop.Reflects number past before)
    (ran : Deployment.takeActions next (.site number standard) plan path indices before =
      some ((), after)) :
    shop.Attains number past shop.workplace.drainer after := by
  induction indices generalizing shop before with
  | nil =>
      cases ran
      exact .refl reflects
  | cons index rest ih =>
      obtain ⟨_, _, got, ran⟩ := Run.bind_cases ran
      cases got
      obtain ⟨current, _, looked, ran⟩ := Run.bind_cases ran
      obtain ⟨rfl, found⟩ := Deployment.demand_cases looked
      cases due : current.due? index with
      | none =>
          rw [due] at ran
          exact ih orderly reflects ran
      | some action =>
          rw [due] at ran
          obtain ⟨⟨⟩, _, put, ran⟩ := Run.bind_cases ran
          cases put
          have spent := reflects.spend found index
          cases action with
          | submit draft below =>
              obtain ⟨update, _, captured, ran⟩ := Run.bind_cases ran
              obtain rfl := Deployment.hookUpdate_cases captured
              obtain ⟨result, _, submitted, ran⟩ := Run.bind_cases ran
              obtain ⟨⟨⟩, _, event, ran⟩ := Run.bind_cases ran
              cases event
              obtain ⟨later, leads, reflects', drainer, same⟩ :=
                serves.submit orderly spent submitted
              have leads : shop.Leads later := .trans (.single (.submit update) rfl) leads
              have attains := ih (leads.orderly orderly) (reflects'.acted _ _ _) ran
              rw [drainer] at attains
              exact attains.onward leads same
          | flush =>
              obtain ⟨result, _, flushed, ran⟩ := Run.bind_cases ran
              obtain ⟨⟨⟩, _, event, ran⟩ := Run.bind_cases ran
              cases event
              obtain rfl := serves.flush flushed
              exact ih orderly (spent.acted _ _ _) ran
          | abort =>
              cases ran
              exact .refl spent

/-- A hook is called, and submits what its plan says. -/
theorem runHook {call : HookCall Nat} {rest : List (HookCall Nat)} (orderly : shop.Orderly)
    (reflects : shop.Reflects number past before) (due : shop.due = call :: rest)
    (ran : Deployment.runHook next number (.site number standard) call before =
      some ((), after)) :
    ∃ later, shop.Leads later ∧ later.Reflects number past after ∧
      later.workplace.drainer = shop.workplace.drainer ∧ later.due = rest := by
  obtain ⟨_, _, got, ran⟩ := Run.bind_cases ran
  cases got
  obtain ⟨⟨⟩, _, entered, ran⟩ := Run.bind_cases ran
  cases entered
  obtain ⟨⟨⟩, _, fired, ran⟩ := Run.bind_cases ran
  cases ran
  obtain ⟨_, _, got, fired⟩ := Run.bind_cases fired
  cases got
  obtain ⟨plan, _, looked, fired⟩ := Run.bind_cases fired
  obtain ⟨rfl, found⟩ := Deployment.demand_cases looked
  have made : shop.Leads
      { shop with due := rest, said := [], journal := shop.journal ++ [.called call] } := by
    refine .single .work ?_
    simp [Workshop.after, Workshop.work, reflects.silent, due]
  cases bound : plan.scope.boundBy call.path with
  | error error =>
      rw [bound] at fired
      cases fired
      refine ⟨_, made, (reflects.call rest found [] ?_).congr rfl rfl rfl, rfl, rfl⟩
      rw [HookPlan.run?, bound]
      rfl
  | ok reference =>
      rw [bound] at fired
      obtain ⟨⟨⟩, noted, event, fired⟩ := Run.bind_cases fired
      have read := reference.value_of_replace before.thread.bindings call.root
        ((Reference.site_of_boundBy bound).trans (reflects.own plan (List.mem_of_getElem? found)))
      have reflects₁ : Workshop.Reflects
          { shop with due := rest, said := [], journal := shop.journal ++ [.called call] }
          number past noted := by
        cases event
        refine (reflects.call rest found [.ran plan.site plan.name call.path (Reference.orAbsent
          (reference.value (before.thread.bindings.replace number call.root).2))
          before.thread.scopes.current] ?_).congr rfl rfl rfl
        simp [HookEvent.run?, HookPlan.run?, bound, read]
      obtain ⟨later, leads, reflects', drainer, same⟩ :=
        serves.takeActions (made.orderly orderly) reflects₁ fired
      exact ⟨later, made.trans leads, reflects'.congr rfl rfl rfl, drainer, same⟩

/-- All calls that are due are made. -/
theorem runHooks {calls : List (HookCall Nat)} (orderly : shop.Orderly)
    (reflects : shop.Reflects number past before) (due : shop.due = calls)
    (ran : calls.forM (Deployment.runHook next number (.site number standard)) before =
      some ((), after)) :
    ∃ later, shop.Leads later ∧ later.Reflects number past after ∧
      later.workplace.drainer = shop.workplace.drainer ∧ later.due = [] := by
  induction calls generalizing shop before with
  | nil =>
      cases ran
      exact ⟨shop, .refl shop, reflects, rfl, due⟩
  | cons call rest ih =>
      obtain ⟨⟨⟩, middle, first, ran⟩ := Run.bind_cases ran
      obtain ⟨between, leads, reflects', held, left⟩ := serves.runHook orderly reflects due first
      obtain ⟨later, onward, reflects'', held', none⟩ :=
        ih (leads.orderly orderly) reflects' left ran
      exact ⟨later, leads.trans onward, reflects'', held'.trans held, none⟩

/-- The drainer does the item that it holds, and makes the calls that come of it. -/
theorem work {item : WorkItem Nat} (orderly : shop.Orderly)
    (reflects : shop.Reflects number past before)
    (holding : shop.workplace.drainer = .holding item)
    (ran : Deployment.work next number item before = some ((), after)) :
    ∃ later, shop.Leads later ∧ later.Reflects number past after ∧
      later.workplace.drainer = .finished ∧ later.due = [] := by
  obtain ⟨own, _, looked, ran⟩ := Run.bind_cases ran
  obtain ⟨rfl, found⟩ := Deployment.station_cases looked
  obtain ⟨standard, there⟩ := reflects.station
  cases found.symm.trans there
  obtain ⟨⟨⟩, middle, put, ran⟩ := Run.bind_cases ran
  have resting : shop.due = [] := (orderly.quiet (by rw [holding]; rfl)).1
  have processed : shop.Leads (shop.process item) := by
    refine .single .work ?_
    simp only [Workshop.after, Workshop.work, reflects.silent, resting, holding]
  have reflects₁ : (shop.process item).Reflects number past middle := by
    cases put
    refine reflects.put rfl ?_ reflects.silent
    simp [Workshop.calls, Workshop.process, Happening.call?]
  have calls {inside outside : Deployment}
      (reflects : (shop.process item).Reflects number past inside)
      (ran : (shop.workplace.site.process item).2.forM
        (Deployment.runHook next number (.site number standard)) inside = some ((), outside)) :
      ∃ later, shop.Leads later ∧ later.Reflects number past outside ∧
        later.workplace.drainer = .finished ∧ later.due = [] := by
    obtain ⟨later, onward, ends⟩ :=
      serves.runHooks (processed.orderly orderly) reflects rfl ran
    exact ⟨later, processed.trans onward, ends⟩
  cases item with
  | introduce hook => exact calls reflects₁ ran
  | apply update =>
      obtain ⟨⟨⟩, inside, entered, ran⟩ := Run.bind_cases ran
      obtain ⟨⟨⟩, outside, made, left⟩ := Run.bind_cases ran
      have reflects₂ : (shop.process (.apply update)).Reflects number past inside := by
        cases entered
        exact reflects₁.congr rfl rfl rfl
      obtain ⟨later, leads, reflects₃, ends⟩ := calls reflects₂ made
      cases left
      exact ⟨later, leads, reflects₃.congr rfl rfl rfl, ends⟩

omit serves in
/-- The drainer, who holds nothing, takes the next item or is gone. -/
theorem takeWork {take : Site Nat → Option (WorkItem Nat) × Site Nat}
    {item : Option (WorkItem Nat)} (reflects : shop.Reflects number past before)
    (due : shop.due = [])
    (resting : shop.workplace.drainer = .arriving ∧ take = Site.take ∨
      shop.workplace.drainer = .finished ∧ take = Site.finish)
    (ran : Deployment.takeWork number take before = some (item, after)) :
    ∃ later, shop.Leads later ∧ later.Reflects number past after ∧
      later.workplace.drainer = (item.map .holding).getD .absent ∧ later.due = [] := by
  obtain ⟨own, _, looked, ran⟩ := Run.bind_cases ran
  obtain ⟨rfl, found⟩ := Deployment.station_cases looked
  obtain ⟨standard, there⟩ := reflects.station
  cases found.symm.trans there
  obtain ⟨⟨⟩, _, put, ran⟩ := Run.bind_cases ran
  cases put
  cases ran
  have stepped : shop.workplace.step = Workplace.hold (take shop.workplace.site) := by
    rcases resting with ⟨held, rfl⟩ | ⟨held, rfl⟩ <;> rw [Workplace.step, held]
  have drainer := congrArg Workplace.drainer stepped
  have worked : ∃ journal : List (Happening Nat),
      journal.filterMap Happening.call? = shop.calls ∧ shop.work (fun _ => []) =
        { shop with workplace := shop.workplace.step, journal := journal } := by
    rcases resting with ⟨held, -⟩ | ⟨held, -⟩
    · exact ⟨shop.journal, rfl, by simp only [Workshop.work, reflects.silent, due, held]⟩
    · refine ⟨shop.journal ++ [.completed], by simp [Workshop.calls, Happening.call?], ?_⟩
      simp only [Workshop.work, reflects.silent, due, held]
  obtain ⟨journal, calls, worked⟩ := worked
  exact ⟨_, .single .work worked,
    reflects.put (congrArg Workplace.site stepped) calls reflects.silent, drainer, due⟩

theorem workOff {item : Option (WorkItem Nat)} {count : Nat} (orderly : shop.Orderly)
    (reflects : shop.Reflects number past before) (due : shop.due = [])
    (held : shop.workplace.drainer = (item.map .holding).getD .absent)
    (ran : Deployment.workOff next number item count before = some ((), after)) :
    shop.Attains number past .absent after := by
  induction count generalizing item shop before with
  | zero =>
      cases item with
      | none =>
          cases ran
          exact ⟨shop, .refl shop, reflects, held, rfl⟩
      | some item => cases ran
  | succ count ih =>
      cases item with
      | none =>
          cases ran
          exact ⟨shop, .refl shop, reflects, held, rfl⟩
      | some item =>
          obtain ⟨⟨⟩, _, worked, ran⟩ := Run.bind_cases ran
          obtain ⟨following, _, taken, ran⟩ := Run.bind_cases ran
          obtain ⟨between, leads, reflects₁, finished, none⟩ :=
            serves.work orderly reflects held worked
          obtain ⟨next, onward, reflects₂, holds, none'⟩ :=
            takeWork reflects₁ none (Or.inr ⟨finished, rfl⟩) taken
          have leads := leads.trans onward
          exact (ih (leads.orderly orderly) reflects₂ none' holds ran).onward leads
            (none'.trans due.symm)

theorem drain_answer (orderly : shop.Orderly) (reflects : shop.Reflects number past before)
    (arriving : shop.workplace.drainer = .arriving)
    (ran : Deployment.drain next number before = some ((), after)) :
    shop.Attains number past .absent after := by
  obtain ⟨⟨⟩, begun, entered, ran⟩ := Run.bind_cases ran
  have reflects₁ : shop.Reflects number past begun := by
    cases entered
    exact reflects.congr rfl rfl rfl
  have due : shop.due = [] := (orderly.quiet (by rw [arriving]; rfl)).1
  obtain ⟨item, _, taken, ran⟩ := Run.bind_cases ran
  obtain ⟨⟨⟩, _, worked, left⟩ := Run.bind_cases ran
  cases left
  obtain ⟨between, leads, reflects₂, holds, none⟩ :=
    takeWork reflects₁ due (Or.inl ⟨arriving, rfl⟩) taken
  obtain ⟨later, onward, reflects₃, ends⟩ :=
    (serves.workOff (leads.orderly orderly) reflects₂ none holds worked).onward leads
      (none.trans due.symm)
  exact ⟨later, onward, reflects₃.congr rfl rfl rfl, ends⟩

theorem submit_answer {update : Update} (orderly : shop.Orderly)
    (reflects : shop.Reflects number past before)
    (ran : Deployment.changeSite next number (·.enqueue (.apply update)) before =
      some ((), after)) :
    (shop.add (.apply update)).Attains number past shop.workplace.drainer after :=
  serves.changeSite (orderly.add (.apply update)) reflects rfl rfl rfl
    (Workplace.absent_of_offer orderly.manned _) ran

theorem answer : Caller.Serves number ⟨fun call => Deployment.answer next call⟩ where
  submit orderly reflects ran := by
    obtain ⟨⟨⟩, -, changed⟩ := Attempt.lift_cases ran
    exact serves.submit_answer orderly reflects changed
  flush ran := by
    obtain ⟨⟨⟩, -, waited⟩ := Attempt.lift_cases ran
    exact (Deployment.awaitIdle_cases waited).1.symm
  root {standard _ _ _} ran := by
    cases standard <;> cases ran <;> exact ⟨rfl, rfl⟩
  drain orderly reflects arriving ran := serves.drain_answer orderly reflects arriving ran

end Hooks

/-- However deep calls may be nested, they do nothing but what a site at work does. -/
theorem performWithin (number depth : Nat) :
    Caller.Serves number ⟨fun call => Deployment.performWithin depth call⟩ := by
  induction depth with
  | zero =>
      constructor
      all_goals
        intros
        rename_i ran
        cases ran
  | succ depth ih => exact ih.answer

theorem caller (number : Nat) : Caller.Serves number Deployment.caller :=
  performWithin number Deployment.depthLimit

end Caller.Serves

/-! ### What is done from outside -/

/-- What is done with a site from outside. -/
inductive SiteCall where
  | submit (update : Update)
  | flush
  | addHook (priority : Int) (plan : HookPlan)

namespace SiteCall

/-- Make a call; nobody looks at its failure. -/
def perform (number : Nat) (standard : Option Node) : SiteCall → Run Unit
  | .submit update => Deployment.caller.offer (.site number standard) update
  | .flush => do
      let _ ← (Deployment.caller.flush (.site number standard)).run
      pure ()
  | .addHook priority plan => Deployment.addHook Deployment.caller number priority plan

/-- Make calls one after the other. -/
def performAll (number : Nat) (standard : Option Node) (calls : List SiteCall) : Run Unit :=
  calls.forM (perform number standard)

/-- The work that is submitted. -/
def items : SiteCall → List (WorkItem Nat)
  | .submit update => [.apply update]
  | _ => []

/-- A hook that is added reads the site. -/
def IsOf (number : Nat) : SiteCall → Prop
  | .addHook _ plan => plan.scope.site = number
  | _ => True

end SiteCall

namespace Workshop

variable {number : Nat} {past : List HookRun} {before after : Deployment} {shop : Workshop Nat}
  {standard : Option Node}

/-- A hook is registered in one go: it draws its place in the order, is put in the registry and
introduced. -/
theorem leads_register (shop : Workshop Nat) (name : String) (scope : Accessor) (priority : Int)
    (payload : Nat) :
    ∃ changed : Workshop Nat, shop.Leads changed ∧
      changed.workplace =
        shop.workplace.change (shop.workplace.site.register name scope priority payload) ∧
      changed.journal = shop.journal ∧ changed.said = shop.said ∧ changed.due = shop.due := by
  let hook : Hook Nat := ⟨name, priority, shop.workplace.site.hooks.draw.1, scope, payload⟩
  let hooks := shop.workplace.site.hooks.draw.2.insert hook
  let listed : Workshop Nat :=
    { shop with
      workplace := { shop.workplace with site := { shop.workplace.site with hooks := hooks } }
      drawn := shop.drawn ++ [hook] }
  have erased (hooks : List (Hook Nat)) : (hooks ++ [hook]).eraseIdx hooks.length = hooks := by
    rw [List.eraseIdx_append_of_length_le (Nat.le_refl _)]
    simp
  have drawn : shop.Leads (shop.draw name scope priority payload) :=
    .single (.draw name scope priority payload) rfl
  have placed : (shop.draw name scope priority payload).Leads
      { listed with unpresented := shop.unpresented ++ [hook] } := by
    refine .single (.place shop.unplaced.length) ?_
    simpa [Workshop.after, Workshop.place, Workshop.draw, listed, hooks, hook] using
      erased shop.unplaced
  have presented : Leads { listed with unpresented := shop.unpresented ++ [hook] }
      (listed.add (.introduce hook)) := by
    refine .single (.present shop.unpresented.length) ?_
    simp [Workshop.after, Workshop.present, listed, erased]
  exact ⟨_, (drawn.trans placed).trans presented, rfl, rfl, rfl, rfl⟩

/-- A call from outside, while nobody drains the queue, is over when nobody drains it again. -/
theorem Reflects.perform (reflects : shop.Reflects number past before) (orderly : shop.Orderly)
    (absent : shop.workplace.drainer = .absent) {call : SiteCall} (own : call.IsOf number)
    (ran : call.perform number standard before = some ((), after)) :
    ∃ later, shop.Leads later ∧ later.Reflects number past after ∧
      later.workplace.drainer = .absent ∧
        (shop.arrived ++ call.items).Sublist later.arrived := by
  have serves := Caller.Serves.caller number
  cases call with
  | submit update =>
      obtain ⟨answer, _, submitted, ran⟩ := Run.bind_cases ran
      cases ran
      obtain ⟨later, leads, reflects', ends, -⟩ := serves.submit orderly reflects submitted
      exact ⟨later, .trans (.single (.submit update) rfl) leads, reflects', ends.trans absent,
        leads.continues.arrived.sublist⟩
  | flush =>
      obtain ⟨answer, _, flushed, ran⟩ := Run.bind_cases ran
      cases ran
      obtain rfl := serves.flush flushed
      exact ⟨shop, .refl shop, reflects, absent, by simp [SiteCall.items]⟩
  | addHook priority plan =>
      obtain ⟨_, _, got, ran⟩ := Run.bind_cases ran
      cases got
      obtain ⟨⟨⟩, planned, put, ran⟩ := Run.bind_cases ran
      have reflects' : shop.Reflects number past planned := by
        cases put
        exact reflects.plan own
      obtain ⟨changed, leads, workplace, journal, said, -⟩ := shop.leads_register plan.name
        plan.scope.accessor priority before.plans.length
      obtain ⟨later, onward, reflects'', ends, -⟩ :=
        serves.changeSite (leads.orderly orderly) reflects' workplace journal said
          (Workplace.absent_of_register orderly.manned _ _ _ _) ran
      have leads := leads.trans onward
      exact ⟨later, leads, reflects'', ends.trans absent,
        by simpa [SiteCall.items] using leads.continues.arrived.sublist⟩

theorem Reflects.performAll {calls : List SiteCall} (reflects : shop.Reflects number past before)
    (orderly : shop.Orderly) (absent : shop.workplace.drainer = .absent)
    (own : ∀ call ∈ calls, call.IsOf number)
    (ran : SiteCall.performAll number standard calls before = some ((), after)) :
    ∃ later, shop.Leads later ∧ later.Reflects number past after ∧
      later.workplace.drainer = .absent ∧
        (shop.arrived ++ calls.flatMap SiteCall.items).Sublist later.arrived := by
  induction calls generalizing shop before with
  | nil =>
      cases ran
      exact ⟨shop, .refl shop, reflects, absent, by simp⟩
  | cons call rest ih =>
      obtain ⟨first, others⟩ := List.forall_mem_cons.mp own
      obtain ⟨⟨⟩, middle, ran, onward⟩ := Run.bind_cases ran
      obtain ⟨between, leads, reflects', absent', added⟩ :=
        reflects.perform orderly absent first ran
      obtain ⟨later, further, reflects'', ends, all⟩ :=
        ih reflects' (leads.orderly orderly) absent' others onward
      refine ⟨later, leads.trans further, reflects'', ends, ?_⟩
      rw [List.flatMap_cons, ← List.append_assoc]
      exact (added.append_right _).trans all

/-- Where nobody drains the queue of a started site, all that was added has been processed. -/
theorem Orderly.idle (orderly : shop.Orderly) (absent : shop.workplace.drainer = .absent)
    (started : shop.workplace.site.queue.isStarted = true) :
    shop.arrived = shop.entries.map Entry.item ∧
      shop.journal = chronicle shop.workplace.site.schema shop.origin shop.entries := by
  have arrived := orderly.arrived
  have journal := orderly.journal
  simp only [Workplace.waiting, absent, Drainer.items, (orderly.attended absent).2 started,
    List.append_nil] at arrived
  simp only [outstanding, absent, Drainer.isFinished, Bool.false_eq_true, if_false,
    List.append_nil] at journal
  exact ⟨arrived, journal⟩

end Workshop

section Launch

open Workshop

variable {number : Nat} {name : String} {identity : Identifier} {schema : Schema}
  {standard : Option Node} {calls : List SiteCall} {before middle after : Deployment}
  (unused : before.stations[number]? = some ⟨.new name identity schema, none⟩)
  (hookless : before.plans = [])
  (launched : (Deployment.launch Deployment.caller number standard []).run before =
    some (.ok (), middle))

include unused hookless launched

/-- A new site that nothing is put in front of starts from its own root. -/
theorem Deployment.launch_cases :
    ∃ root, standard.map schema.polyfill = some root ∧
      ((Workshop.new name identity schema).start root).Attains number before.runs .absent
        middle := by
  have serves := Caller.Serves.caller number
  let shop : Workshop Nat := .new name identity schema
  have fresh : shop.Orderly := orderly_new name identity schema
  obtain ⟨_, _, stacked, rest⟩ | ⟨_, -, failed⟩ := Attempt.bind_cases launched
  case inr => cases failed
  cases stacked
  obtain ⟨⟨⟩, placed, put, rest₁⟩ := Attempt.lift_bind_cases rest
  have reflects : shop.Reflects number before.runs placed := by
    cases put
    refine ⟨⟨standard, ?_⟩, by simp [hookless], nofun, (List.append_nil _).symm, rfl⟩
    simp [unused, shop, Workshop.new]
  obtain ⟨supplied, _, rooted, rest₂⟩ | ⟨_, -, failed⟩ := Attempt.bind_cases rest₁
  case inr => cases failed
  obtain ⟨rfl, given⟩ := serves.root rooted
  obtain ⟨own, _, looked, rest₃⟩ := Attempt.lift_bind_cases rest₂
  obtain ⟨rfl, found⟩ := station_cases looked
  obtain ⟨outlet, there⟩ := reflects.station
  cases found.symm.trans there
  dsimp only at rest₃
  split at rest₃
  case h_2 => cases rest₃
  obtain ⟨⟨⟩, -, started⟩ := Attempt.lift_cases rest₃
  refine ⟨schema.polyfill supplied, by rw [← given]; rfl, ?_⟩
  exact serves.changeSite (fresh.start _) reflects rfl rfl rfl (fun _ => rfl) started

/-- A site of a deployment that nothing stands in front of is a site at work, whatever its hooks
submit. Let it be launched, and let calls be made from outside, each with all the work that it leads
to. Then all that was added has been processed, with what was submitted from outside among it in its
order. The root is what the items leave; and the runs of hooks on record are the calls of the items
one after the other, each with what it finds in the root that its item has left. -/
theorem Deployment.site_at_work (own : ∀ call ∈ calls, call.IsOf number)
    (ran : SiteCall.performAll number standard calls middle = some ((), after)) :
    ∃ root events, standard.map schema.polyfill = some root ∧
      let shop := (Workshop.new name identity schema).run (fun _ => []) events
      after.stations[number]?.map Station.site = some shop.workplace.site ∧
        shop.arrived = shop.entries.map Entry.item ∧
          (calls.flatMap SiteCall.items).Sublist shop.arrived ∧
            shop.workplace.site.root = rootAfter schema root shop.entries ∧
              shop.journal = chronicle schema root shop.entries ∧
                after.runs = before.runs ++ shop.calls.filterMap after.run? := by
  obtain ⟨root, given, begun, leads, reflects, absent, -⟩ :=
    launch_cases unused hookless launched
  let shop : Workshop Nat := .new name identity schema
  have started : shop.Leads (shop.start root) := .single (.start root) rfl
  have orderly := (started.trans leads).orderly (orderly_new name identity schema)
  obtain ⟨later, onward, reflects', absent', added⟩ :=
    reflects.performAll orderly absent own ran
  have kept : (shop.start root).Continues later := (leads.trans onward).continues
  obtain ⟨events, same⟩ := started.trans (leads.trans onward)
  obtain ⟨outlet, there⟩ := reflects'.station
  have ordered := onward.orderly orderly
  obtain ⟨arrived, journal⟩ := ordered.idle absent' (kept.started rfl)
  have origin : later.origin = root := kept.origin rfl
  have governed : later.workplace.site.schema = schema := kept.schema
  refine ⟨root, events, given, ?_⟩
  rw [show (Workshop.new name identity schema).run (fun _ => []) events = later from same]
  refine ⟨by rw [there]; rfl, arrived, ?_, ?_, ?_, reflects'.runs⟩
  · exact (List.sublist_append_right _ _).trans added
  · rw [← origin, ← governed]
    exact ordered.root
  · rw [← origin, ← governed]
    exact journal

end Launch

namespace Sample

/-- The title of the sample is replaced. -/
def titled (title : String) : Update := ⟨.replacement (.ofNames ["title"]) (.str title), .empty⟩

/-- A hook on the title that replaces it once. -/
def echo : HookPlan :=
  ⟨"sample", "echo", ⟨0, schema, ⟨.ofNames ["title"], [.field "title" false], .str⟩,
    View.node.reading⟩, [⟨.submit ⟨(titled "echo").operation, none⟩ none, 1⟩]⟩

/-- Launch a site, add the hook, and submit an update. -/
def echoing : Run (List (Option (Option Node))) := do
  let _ ← (Deployment.launch Deployment.caller 0 (some tree) []).run
  SiteCall.performAll 0 (some tree) [.addHook 0 echo, .submit (titled "other")]
  let deployment ← get
  pure (deployment.runs.map fun run => run.value.toOption)

/-- The hook is called when it is introduced, for its own update, and for the one from outside. -/
example :
    (echoing { Deployment.empty with stations := [⟨.new "sample" a schema, none⟩] }).map
        Prod.fst =
      some [some (some (.str "sample")), some (some (.str "echo")),
        some (some (.str "other"))] := by
  decide +kernel

end Sample

end StateTree
