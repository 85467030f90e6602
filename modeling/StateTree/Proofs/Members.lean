/-
Module: StateTree.Proofs.Members
Purpose: A deployment whose sites are all of one replica set. Whatever is done with them is a run of
  an ensemble; while no hook submits anything it is one that permits all its steps, and so the sites
  are in lockstep.
-/
import StateTree.Proofs.Attempts
import StateTree.Proofs.Lockstep

namespace StateTree

/-! ### Hooks that submit nothing -/

def HookAction.submits : HookAction → Bool
  | .submit _ _ => true
  | _ => false

namespace HookPlan

/-- None of the actions submits anything. -/
def isQuiet (plan : HookPlan) : Bool := plan.steps.all fun step => !step.action.submits

/-- A plan that submits nothing submits nothing after one of its actions was taken. -/
theorem isQuiet_spend {plan : HookPlan} (quiet : plan.isQuiet = true) (index : Nat) :
    (plan.spend index).isQuiet = true := by
  rw [isQuiet, List.all_eq_true] at quiet ⊢
  intro step member
  obtain ⟨place, found⟩ := List.getElem?_of_mem member
  rw [spend, List.getElem?_modify] at found
  obtain ⟨before, there, rfl⟩ := Option.map_eq_some_iff.mp found
  have kept := quiet before (List.mem_of_getElem? there)
  split <;> exact kept

theorem not_isQuiet_of_due {plan : HookPlan} {index : Nat} {draft : Draft} {below : Option Path}
    (due : plan.due? index = some (.submit draft below)) : plan.isQuiet = false := by
  obtain ⟨step, there, taken⟩ := Option.bind_eq_some_iff.mp due
  split at taken
  · rw [isQuiet, List.all_eq_false]
    refine ⟨step, List.mem_of_getElem? there, ?_⟩
    rw [Option.some.inj taken]
    exact Bool.false_ne_true
  · cases taken

end HookPlan

theorem Pipeline.eq_site_of_site? {pipeline : Pipeline} {number : Nat}
    (found : pipeline.site? = some number) : ∃ standard, pipeline = .site number standard := by
  cases pipeline <;> cases found
  exact ⟨_, rfl⟩

/-! ### The ensemble of a deployment -/

namespace Ensemble

variable {κ : Type}

/-- What the drainer of a site is at. -/
def drainer? (ensemble : Ensemble κ) (number : Nat) : Option (Drainer κ) :=
  ensemble.players[number]?.map fun player => player.workplace.drainer

/-- The root that a site has been supplied with and has not published yet. -/
def supplied? (ensemble : Ensemble κ) (number : Nat) : Option (Option Node) :=
  ensemble.players[number]?.map Player.supplied

/-- The ensemble can come to be another one, by steps that are all permitted if `quiet` holds. -/
def Leads (quiet : Prop) (schema : Schema) (ensemble later : Ensemble κ) : Prop :=
  ∃ events, (quiet → ensemble.PermitsAll schema events) ∧ ensemble.run schema events = later

/-- The ensemble can come to be another one, with these drainers; what is submitted on the way is
handed on to all. -/
structure Becomes (quiet : Prop) (schema : Schema) (drainers : Nat → Option (Drainer κ))
    (ensemble later : Ensemble κ) : Prop where
  leads : Leads quiet schema ensemble later
  set : later.set = ensemble.set
  drainers : later.drainer? = drainers
  supplied : later.supplied? = ensemble.supplied?
  spreading : ∃ more, later.spreading = ensemble.spreading ++ more ∧ ∀ entry ∈ more, entry.2 = []

/-- The sites of a deployment are those of the ensemble, and their hooks submit to the set. If
`quiet` holds, no hook submits anything. -/
structure Reflects (quiet : Prop) (name : String) (ensemble : Ensemble Nat)
    (deployment : Deployment) : Prop where
  set : deployment.set? name = ensemble.set
  sites : ∀ number : Nat, deployment.stations[number]?.map Station.site =
    ensemble.players[number]?.map fun player => player.workplace.site
  outlets : ∀ (number : Nat) station outlet, deployment.stations[number]? = some station →
    station.outlet = some outlet →
      ∃ standard, outlet = .replicaSet name number (.site number standard)
  plans : quiet → ∀ plan ∈ deployment.plans, plan.isQuiet = true

section Becomes

variable {quiet : Prop} {schema : Schema} {ensemble middle later : Ensemble κ}
  {drainers drainers' : Nat → Option (Drainer κ)}

theorem Leads.refl (quiet : Prop) (schema : Schema) (ensemble : Ensemble κ) :
    Leads quiet schema ensemble ensemble :=
  ⟨[], fun _ => trivial, rfl⟩

/-- One run after another is a run, and what each permits the whole permits. -/
theorem Leads.trans (first : Leads quiet schema ensemble middle)
    (second : Leads quiet schema middle later) : Leads quiet schema ensemble later := by
  obtain ⟨events, permitted, rfl⟩ := first
  obtain ⟨more, permitted', rfl⟩ := second
  exact ⟨events ++ more,
    fun still => permitsAll_append.mpr ⟨permitted still, permitted' still⟩, List.foldl_append⟩

theorem Leads.single (event : EnsembleEvent κ) (permitted : quiet → ensemble.Permits event)
    (same : ensemble.after schema event = later) : Leads quiet schema ensemble later :=
  ⟨[event], fun still => ⟨permitted still, trivial⟩, same⟩

theorem Leads.formed (leads : Leads quiet schema ensemble later)
    (distinct : schema.DistinctFields) (defaults : schema.DefaultsFit)
    (formed : ensemble.Formed schema) : later.Formed schema := by
  obtain ⟨events, -, rfl⟩ := leads
  exact formed.run distinct defaults events

theorem Becomes.refl (quiet : Prop) (schema : Schema) (ensemble : Ensemble κ) :
    Becomes quiet schema ensemble.drainer? ensemble ensemble where
  leads := .refl quiet schema ensemble
  set := rfl
  drainers := rfl
  supplied := rfl
  spreading := ⟨[], (List.append_nil _).symm, nofun⟩

theorem update_drainer? {number : Nat} {drainer : Drainer κ}
    (held : ensemble.drainer? number = some drainer) :
    Function.update ensemble.drainer? number (some drainer) = ensemble.drainer? :=
  Function.update_eq_self_iff.mpr held.symm

theorem Becomes.rest {number : Nat} {drainer : Drainer κ}
    (held : ensemble.drainer? number = some drainer) :
    Becomes quiet schema (Function.update ensemble.drainer? number (some drainer)) ensemble
      ensemble := by
  rw [update_drainer? held]
  exact .refl quiet schema ensemble

/-- What becomes of the ensemble in two parts of a call becomes of it in the whole. -/
theorem Becomes.trans (first : Becomes quiet schema drainers ensemble middle)
    (second : Becomes quiet schema drainers' middle later) :
    Becomes quiet schema drainers' ensemble later := by
  obtain ⟨new, spread, done⟩ := first.spreading
  obtain ⟨new', spread', done'⟩ := second.spreading
  constructor
  · exact first.leads.trans second.leads
  · exact second.set.trans first.set
  · exact second.drainers
  · exact second.supplied.trans first.supplied
  · exact ⟨new ++ new', by rw [spread', spread, List.append_assoc],
      List.forall_mem_append.mpr ⟨done, done'⟩⟩

theorem Becomes.onward (first : Becomes quiet schema drainers ensemble middle)
    (second : Becomes quiet schema middle.drainer? middle later) :
    Becomes quiet schema drainers ensemble later :=
  first.drainers ▸ first.trans second

theorem supplied?_change {number : Nat} {change : Player κ → Player κ}
    (kept : ∀ player, (change player).supplied = player.supplied) :
    (ensemble.change number change).supplied? = ensemble.supplied? := by
  funext site
  rw [supplied?, getElem?_change]
  split
  · rw [Option.map_map]
    exact congrArg (Option.map · _) (funext kept)
  · rfl

/-- The drainer of a site takes a step. -/
theorem Becomes.work (quiet : Prop) (schema : Schema) (ensemble : Ensemble κ) (number : Nat) :
    Becomes quiet schema (ensemble.change number Player.step).drainer? ensemble
      (ensemble.change number Player.step) where
  leads := .single (.work number) (fun _ => trivial) rfl
  set := rfl
  drainers := rfl
  supplied := supplied?_change fun _ => rfl
  spreading := ⟨[], (List.append_nil _).symm, nofun⟩

/-- An ensemble that is well formed stays so while a call is answered. -/
theorem Becomes.formed (becomes : Becomes quiet schema drainers ensemble later)
    (distinct : schema.DistinctFields) (defaults : schema.DefaultsFit)
    (formed : ensemble.Formed schema) : later.Formed schema :=
  becomes.leads.formed distinct defaults formed

theorem drainer?_eq {number : Nat} {player : Player κ}
    (there : ensemble.players[number]? = some player) :
    ensemble.drainer? number = some player.workplace.drainer := by
  rw [drainer?, there]
  rfl

/-- A change of one site changes what is told of its drainer, and of no other. -/
theorem drainer?_change {number : Nat} (change : Player κ → Player κ) {player : Player κ}
    (there : ensemble.players[number]? = some player) :
    (ensemble.change number change).drainer? =
      Function.update ensemble.drainer? number (some (change player).workplace.drainer) := by
  funext site
  rw [drainer?, getElem?_change]
  split
  · rename_i same
    rw [← same, there, Function.update_self]
    rfl
  · rename_i other
    rw [Function.update_of_ne (Ne.symm other)]
    rfl

end Becomes

namespace Reflects

variable {quiet : Prop} {name : String} {ensemble : Ensemble Nat} {before after : Deployment}

/-- Only the sites, the set and the hooks count. -/
theorem congr (reflects : ensemble.Reflects quiet name before)
    (stations : after.stations = before.stations) (sets : after.sets = before.sets)
    (plans : after.plans = before.plans) : ensemble.Reflects quiet name after := by
  constructor
  · rw [Deployment.set?, sets]
    exact reflects.set
  · rw [stations]
    exact reflects.sites
  · rw [stations]
    exact reflects.outlets
  · rw [plans]
    exact reflects.plans

/-- Each site of the deployment has its player in the ensemble. -/
theorem station (reflects : ensemble.Reflects quiet name before) {number : Nat} {own : Station}
    (found : before.stations[number]? = some own) :
    ∃ player, ensemble.players[number]? = some player ∧ player.workplace.site = own.site := by
  have same := reflects.sites number
  rw [found] at same
  exact Option.map_eq_some_iff.mp same.symm

/-- A site is put in the place of its former state. -/
theorem put (reflects : ensemble.Reflects quiet name before) {number : Nat} {site : Site Nat}
    {change : Player Nat → Player Nat} {player : Player Nat}
    (there : ensemble.players[number]? = some player)
    (changed : (change player).workplace.site = site) :
    (ensemble.change number change).Reflects quiet name
      { before with
        stations :=
          before.stations.modify number fun station => { station with site := site } } := by
  refine ⟨reflects.set, fun other => ?_, fun other own outlet found held => ?_, reflects.plans⟩
  · have same := reflects.sites other
    rw [getElem?_change, List.getElem?_modify]
    split
    · rename_i here
      rw [← here, there] at same ⊢
      obtain ⟨own, found, -⟩ := Option.map_eq_some_iff.mp same
      rw [found]
      exact congrArg some changed.symm
    · simpa using same
  · rw [List.getElem?_modify] at found
    obtain ⟨former, there, rfl⟩ := Option.map_eq_some_iff.mp found
    refine reflects.outlets other former outlet there ?_
    split at held <;> exact held

/-- The drainer takes its next item or is gone. -/
theorem takeWork (reflects : ensemble.Reflects quiet name before) {number : Nat}
    {take : Site Nat → Option (WorkItem Nat) × Site Nat} {item : Option (WorkItem Nat)}
    (taken : ∀ player, ensemble.players[number]? = some player →
      player.workplace.step = Workplace.hold (take player.workplace.site))
    (ran : Deployment.takeWork number take before = some (item, after)) (schema : Schema) :
    Becomes quiet schema
        (Function.update ensemble.drainer? number (some ((item.map .holding).getD .absent)))
        ensemble (ensemble.change number Player.step) ∧
      (ensemble.change number Player.step).Reflects quiet name after := by
  obtain ⟨own, _, looked, ran⟩ := Run.bind_cases ran
  obtain ⟨rfl, found⟩ := Deployment.station_cases looked
  obtain ⟨player, there, same⟩ := reflects.station found
  have stepped := taken player there
  rw [same] at stepped
  obtain ⟨⟨⟩, _, put, ran⟩ := Run.bind_cases ran
  cases put
  cases ran
  constructor
  · have becomes := Becomes.work quiet schema ensemble number
    have drainer : player.step.workplace.drainer =
        ((take own.site).1.map .holding).getD .absent := congrArg Workplace.drainer stepped
    rw [drainer?_change _ there, drainer] at becomes
    exact becomes
  · exact reflects.put there (congrArg Workplace.site stepped)

end Reflects

/-- The ensemble can come to be that of a deployment, with these drainers. -/
def Attains (quiet : Prop) (name : String) (schema : Schema)
    (drainers : Nat → Option (Drainer Nat)) (ensemble : Ensemble Nat) (deployment : Deployment) :
    Prop :=
  ∃ later : Ensemble Nat, Becomes quiet schema drainers ensemble later ∧
    later.Reflects quiet name deployment

/-- What a run does to a deployment of an ensemble is nothing but steps of this, and drainers are
where they were. -/
def Behaves (quiet : Prop) (name : String) (schema : Schema) (run : Run Unit) : Prop :=
  ∀ ⦃ensemble : Ensemble Nat⦄ ⦃before after⦄, ensemble.Formed schema →
    ensemble.Reflects quiet name before → run before = some ((), after) →
      ensemble.Attains quiet name schema ensemble.drainer? after

end Ensemble

/-! ### Calls -/

/-- What calls do to a deployment of an ensemble. -/
structure Caller.Follows (quiet : Prop) (name : String) (schema : Schema) (next : Caller) :
    Prop where
  submitSite : ∀ {ensemble : Ensemble Nat} {number standard update before result after},
    ensemble.Formed schema → ensemble.Reflects quiet name before →
      (next.submit (.site number standard) update).run before = some (result, after) →
        result = .ok () ∧
          (ensemble.change number (Player.receive update)).Attains quiet name schema
            ensemble.drainer? after
  submitSet : ∀ {ensemble : Ensemble Nat} {site down update before result after},
    ensemble.Formed schema → ensemble.Reflects quiet name before →
      (quiet → ∀ entry ∈ ensemble.spreading, entry.2 = []) →
        (next.submit (.replicaSet name site down) update).run before = some (result, after) →
          ensemble.Attains quiet name schema ensemble.drainer? after
  drain : ∀ {ensemble : Ensemble Nat} {number before after},
    ensemble.Formed schema → ensemble.Reflects quiet name before →
      ensemble.drainer? number = some .arriving →
        next.perform (.drain number) before = some ((), after) →
          ensemble.Attains quiet name schema
            (Function.update ensemble.drainer? number (some .absent)) after
  flushSite : ∀ {number standard before result after},
    (next.flush (.site number standard)).run before = some (result, after) → after = before
  flushSet : ∀ {ensemble : Ensemble Nat} {site down before result after},
    ensemble.Formed schema → ensemble.Reflects quiet name before →
      (next.flush (.replicaSet name site down)).run before = some (result, after) → after = before
  rootSite : ∀ {number standard before result after},
    (next.initialRoot (.site number standard)).run before = some (result, after) →
      after = before ∧ result.toOption = standard
  rootSet : ∀ {ensemble : Ensemble Nat} {number : Nat} {player : Player Nat} {before result after},
    ensemble.Reflects quiet name before →
      (next.initialRoot (.replicaSet name number (.site number player.standard))).run before =
          some (result, after) →
        after = before ∧ result.toOption = ensemble.rootFor number player
  closeSite : ∀ {number standard before after},
    next.close (.site number standard) before = some ((), after) → after = before
  closeSet : ∀ {ensemble : Ensemble Nat} {number standard before after},
    ensemble.Reflects quiet name before →
      next.close (.replicaSet name number (.site number standard)) before = some ((), after) →
        (ensemble.after schema (.leave number)).Reflects quiet name after

namespace Caller.Follows

open Ensemble

variable {quiet : Prop} {name : String} {schema : Schema} {next : Caller}
  {ensemble : Ensemble Nat} {number : Nat} {before after : Deployment}

/-- A change to a site, with the work that it leads to. -/
theorem changeSite (follows : next.Follows quiet name schema)
    {alter : Site Nat → Bool × Site Nat} {change : Player Nat → Player Nat}
    (formed : (ensemble.change number change).Formed schema)
    (reflects : ensemble.Reflects quiet name before)
    (changed : ∀ player, ensemble.players[number]? = some player →
      (change player).workplace = player.workplace.change (alter player.workplace.site) ∧
        ((alter player.workplace.site).1 = true → player.workplace.drainer = .absent))
    (ran : Deployment.changeSite next number alter before = some ((), after)) :
    (ensemble.change number change).Attains quiet name schema ensemble.drainer? after := by
  obtain ⟨own, _, looked, ran⟩ := Run.bind_cases ran
  obtain ⟨rfl, found⟩ := Deployment.station_cases looked
  obtain ⟨player, there, same⟩ := reflects.station found
  obtain ⟨workplace, unmanned⟩ := changed player there
  rw [same] at workplace unmanned
  obtain ⟨⟨⟩, _, put, ran⟩ := Run.bind_cases ran
  cases put
  have put : (ensemble.change number change).Reflects quiet name _ :=
    reflects.put there (congrArg Workplace.site workplace)
  have moved := drainer?_change change there
  rw [workplace] at moved
  have held := drainer?_eq there
  dsimp only at ran
  split at ran
  · rename_i drains
    have arriving : (ensemble.change number change).drainer? number = some .arriving := by
      rw [moved, Function.update_self, Workplace.change, if_pos drains]
    obtain ⟨later, becomes, reflects'⟩ := follows.drain formed put arriving ran
    rw [unmanned drains] at held
    rw [moved, Function.update_idem, update_drainer? held] at becomes
    exact ⟨later, becomes, reflects'⟩
  · rename_i stays
    cases ran
    rw [Workplace.change, if_neg stays, update_drainer? held] at moved
    exact ⟨_, moved ▸ .refl quiet schema _, put⟩

section Hooks

variable (follows : next.Follows quiet name schema) (distinct : schema.DistinctFields)
  (defaults : schema.DefaultsFit)

include follows distinct defaults

/-- The actions of a hook submit to the set or do nothing, by induction on the actions that may be
due. -/
theorem takeActions (site : Nat) (down : Pipeline) (plan : Nat) (path : Path)
    (indices : List Nat) :
    Behaves quiet name schema
      (Deployment.takeActions next (.replicaSet name site down) plan path indices) := by
  intro ensemble before after formed reflects ran
  induction indices generalizing ensemble before with
  | nil =>
      cases ran
      exact ⟨ensemble, .refl quiet schema ensemble, reflects⟩
  | cons index rest ih =>
      obtain ⟨_, _, got, ran⟩ := Run.bind_cases ran
      cases got
      obtain ⟨current, _, looked, ran⟩ := Run.bind_cases ran
      obtain ⟨rfl, found⟩ := Deployment.demand_cases looked
      have among := List.mem_of_getElem? found
      cases due : current.due? index with
      | none =>
          rw [due] at ran
          exact ih formed reflects ran
      | some action =>
          rw [due] at ran
          obtain ⟨⟨⟩, _, put, ran⟩ := Run.bind_cases ran
          cases put
          have spent : ensemble.Reflects quiet name
              { before with plans := before.plans.set plan (current.spend index) } := by
            refine ⟨reflects.set, reflects.sites, reflects.outlets, fun still other member => ?_⟩
            rcases List.mem_or_eq_of_mem_set member with old | rfl
            · exact reflects.plans still other old
            · exact HookPlan.isQuiet_spend (reflects.plans still current among) index
          cases action with
          | submit draft below =>
              have loud (still : quiet) : False :=
                absurd ((HookPlan.not_isQuiet_of_due due).symm.trans
                  (reflects.plans still current among)) Bool.false_ne_true
              obtain ⟨update, _, captured, ran⟩ := Run.bind_cases ran
              obtain rfl := Deployment.hookUpdate_cases captured
              obtain ⟨result, _, submitted, ran⟩ := Run.bind_cases ran
              obtain ⟨⟨⟩, noted, event, ran⟩ := Run.bind_cases ran
              obtain ⟨between, becomes, reflects₁⟩ :=
                follows.submitSet formed spent (fun still => (loud still).elim) submitted
              have reflects₂ : between.Reflects quiet name noted := by
                cases event
                exact reflects₁.congr rfl rfl rfl
              obtain ⟨later, onward, reflects₃⟩ :=
                ih (becomes.formed distinct defaults formed) reflects₂ ran
              exact ⟨later, becomes.onward onward, reflects₃⟩
          | flush =>
              obtain ⟨result, _, flushed, ran⟩ := Run.bind_cases ran
              obtain ⟨⟨⟩, noted, event, ran⟩ := Run.bind_cases ran
              have reflects₁ : ensemble.Reflects quiet name noted := by
                cases event
                obtain rfl := follows.flushSet formed spent flushed
                exact spent.congr rfl rfl rfl
              exact ih formed reflects₁ ran
          | abort =>
              cases ran
              exact ⟨ensemble, .refl quiet schema ensemble, spent⟩

/-- To run a hook is to read and to take its actions, and so is to run it with a root pinned. -/
theorem fire (site : Nat) (down : Pipeline) (plan : Nat) (path : Path) :
    Behaves quiet name schema
      (Deployment.fire next (.replicaSet name site down) plan path) := by
  intro ensemble before after formed reflects ran
  obtain ⟨_, _, got, ran⟩ := Run.bind_cases ran
  cases got
  obtain ⟨current, _, looked, ran⟩ := Run.bind_cases ran
  obtain ⟨rfl, -⟩ := Deployment.demand_cases looked
  cases bound : current.scope.boundBy path with
  | error error =>
      rw [bound] at ran
      cases ran
      exact ⟨ensemble, .refl quiet schema ensemble, reflects⟩
  | ok reference =>
      rw [bound] at ran
      obtain ⟨⟨⟩, noted, event, ran⟩ := Run.bind_cases ran
      have reflects₁ : ensemble.Reflects quiet name noted := by
        cases event
        exact reflects.congr rfl rfl rfl
      exact follows.takeActions distinct defaults site down plan path _ formed reflects₁ ran

theorem runHook (site : Nat) (down : Pipeline) (number : Nat) (call : HookCall Nat) :
    Behaves quiet name schema
      (Deployment.runHook next number (.replicaSet name site down) call) := by
  intro ensemble before after formed reflects ran
  obtain ⟨_, _, got, ran⟩ := Run.bind_cases ran
  cases got
  obtain ⟨⟨⟩, pinned, entered, ran⟩ := Run.bind_cases ran
  obtain ⟨⟨⟩, _, fired, ran⟩ := Run.bind_cases ran
  cases ran
  have reflects₁ : ensemble.Reflects quiet name pinned := by
    cases entered
    exact reflects.congr rfl rfl rfl
  obtain ⟨later, becomes, reflects₂⟩ :=
    follows.fire distinct defaults site down _ _ formed reflects₁ fired
  exact ⟨later, becomes, reflects₂.congr rfl rfl rfl⟩

omit follows in
/-- Calls that are made one after the other behave if each of them does. -/
theorem forM {calls : List (HookCall Nat)} {run : HookCall Nat → Run Unit}
    (behaves : ∀ call, Behaves quiet name schema (run call)) :
    Behaves quiet name schema (calls.forM run) := by
  intro ensemble before after formed reflects ran
  induction calls generalizing ensemble before with
  | nil =>
      cases ran
      exact ⟨ensemble, .refl quiet schema ensemble, reflects⟩
  | cons call rest ih =>
      obtain ⟨⟨⟩, middle, first, ran⟩ := Run.bind_cases ran
      obtain ⟨between, becomes, reflects'⟩ := behaves call formed reflects first
      obtain ⟨later, onward, reflects''⟩ :=
        ih (becomes.formed distinct defaults formed) reflects' ran
      exact ⟨later, becomes.onward onward, reflects''⟩

omit follows distinct defaults in
theorem underContextOf {item : WorkItem Nat} {run : Run Unit}
    (behaves : Behaves quiet name schema run) :
    Behaves quiet name schema (Deployment.underContextOf item run) := by
  intro ensemble before after formed reflects ran
  cases item with
  | introduce hook => exact behaves formed reflects ran
  | apply update =>
      obtain ⟨⟨⟩, inside, entered, ran⟩ := Run.bind_cases ran
      obtain ⟨⟨⟩, _, done, ran⟩ := Run.bind_cases ran
      cases ran
      have reflects₁ : ensemble.Reflects quiet name inside := by
        cases entered
        exact reflects.congr rfl rfl rfl
      obtain ⟨later, becomes, reflects₂⟩ := behaves formed reflects₁ done
      exact ⟨later, becomes, reflects₂.congr rfl rfl rfl⟩

/-- The drainer does the item that it holds. -/
theorem work {item : WorkItem Nat} (formed : ensemble.Formed schema)
    (reflects : ensemble.Reflects quiet name before)
    (holding : ensemble.drainer? number = some (.holding item))
    (ran : Deployment.work next number item before = some ((), after)) :
    ensemble.Attains quiet name schema
      (Function.update ensemble.drainer? number (some .finished)) after := by
  obtain ⟨own, _, looked, ran⟩ := Run.bind_cases ran
  obtain ⟨rfl, found⟩ := Deployment.station_cases looked
  obtain ⟨player, there, same⟩ := reflects.station found
  obtain ⟨⟨⟩, _, put, ran⟩ := Run.bind_cases ran
  cases put
  have stepped : player.workplace.step = ⟨(own.site.process item).1, .finished⟩ := by
    rw [drainer?_eq there] at holding
    rw [Workplace.step, Option.some.inj holding, same]
  have put : (ensemble.change number Player.step).Reflects quiet name _ :=
    reflects.put there (congrArg Workplace.site stepped)
  have becomes := Becomes.work quiet schema ensemble number
  have drainer : player.step.workplace.drainer = .finished :=
    congrArg Workplace.drainer stepped
  rw [drainer?_change _ there, drainer] at becomes
  cases outlet : own.outlet with
  | none =>
      rw [outlet] at ran
      cases ran
      exact ⟨_, becomes, put⟩
  | some pipeline =>
      rw [outlet] at ran
      obtain ⟨standard, rfl⟩ := reflects.outlets number own pipeline found outlet
      have hooks : Behaves quiet name schema (Deployment.underContextOf item
          ((own.site.process item).2.forM
            (Deployment.runHook next number (.replicaSet name number (.site number standard))))) :=
        underContextOf (forM distinct defaults fun call =>
          follows.runHook distinct defaults number (.site number standard) number call)
      obtain ⟨later, onward, reflects'⟩ :=
        hooks (becomes.formed distinct defaults formed) put ran
      exact ⟨later, becomes.onward onward, reflects'⟩

/-- The drainer works off what waits at its site, item by item, and is gone then; by induction on
how many items it may take. -/
theorem workOff {item : Option (WorkItem Nat)} {count : Nat} (formed : ensemble.Formed schema)
    (reflects : ensemble.Reflects quiet name before)
    (held : ensemble.drainer? number = some ((item.map .holding).getD .absent))
    (ran : Deployment.workOff next number item count before = some ((), after)) :
    ensemble.Attains quiet name schema
      (Function.update ensemble.drainer? number (some .absent)) after := by
  induction count generalizing item ensemble before with
  | zero =>
      cases item with
      | none =>
          cases ran
          exact ⟨ensemble, .rest held, reflects⟩
      | some item => cases ran
  | succ count ih =>
      cases item with
      | none =>
          cases ran
          exact ⟨ensemble, .rest held, reflects⟩
      | some item =>
          obtain ⟨⟨⟩, _, worked, ran⟩ := Run.bind_cases ran
          obtain ⟨following, _, taken, ran⟩ := Run.bind_cases ran
          obtain ⟨between, becomes, reflects'⟩ :=
            follows.work distinct defaults formed reflects held worked
          have finished : between.drainer? number = some .finished := by
            rw [becomes.drainers, Function.update_self]
          have takes (player : Player Nat) (there : between.players[number]? = some player) :
              player.workplace.step = Workplace.hold player.workplace.site.finish := by
            rw [drainer?_eq there] at finished
            rw [Workplace.step, Option.some.inj finished]
          obtain ⟨taking, reflects''⟩ := reflects'.takeWork takes taken schema
          have onward := becomes.trans taking
          rw [becomes.drainers, Function.update_idem] at onward
          have next : (between.change number Player.step).drainer? number =
              some ((following.map .holding).getD .absent) := by
            rw [onward.drainers, Function.update_self]
          obtain ⟨later, rest, reflected⟩ :=
            ih (onward.formed distinct defaults formed) reflects'' next ran
          have whole := onward.trans rest
          rw [onward.drainers, Function.update_idem] at whole
          exact ⟨later, whole, reflected⟩

theorem drain_answer (formed : ensemble.Formed schema)
    (reflects : ensemble.Reflects quiet name before)
    (arriving : ensemble.drainer? number = some .arriving)
    (ran : Deployment.drain next number before = some ((), after)) :
    ensemble.Attains quiet name schema
      (Function.update ensemble.drainer? number (some .absent)) after := by
  obtain ⟨⟨⟩, begun, entered, ran⟩ := Run.bind_cases ran
  have reflects₁ : ensemble.Reflects quiet name begun := by
    cases entered
    exact reflects.congr rfl rfl rfl
  obtain ⟨item, _, taken, ran⟩ := Run.bind_cases ran
  obtain ⟨⟨⟩, _, worked, ran⟩ := Run.bind_cases ran
  cases ran
  have takes (player : Player Nat) (there : ensemble.players[number]? = some player) :
      player.workplace.step = Workplace.hold player.workplace.site.take := by
    rw [drainer?_eq there] at arriving
    rw [Workplace.step, Option.some.inj arriving]
  obtain ⟨taking, reflects₂⟩ := reflects₁.takeWork takes taken schema
  have next : (ensemble.change number Player.step).drainer? number =
      some ((item.map .holding).getD .absent) := by
    rw [taking.drainers, Function.update_self]
  obtain ⟨later, rest, reflects₃⟩ :=
    follows.workOff distinct defaults (taking.formed distinct defaults formed) reflects₂ next worked
  have whole := taking.trans rest
  rw [taking.drainers, Function.update_idem] at whole
  exact ⟨later, whole, reflects₃.congr rfl rfl rfl⟩

end Hooks

/-- A site gets an update. -/
theorem submitSite_answer (follows : next.Follows quiet name schema)
    (formed : ensemble.Formed schema) (reflects : ensemble.Reflects quiet name before)
    {update : Update}
    (ran : Deployment.changeSite next number (·.enqueue (.apply update)) before =
      some ((), after)) :
    (ensemble.change number (Player.receive update)).Attains quiet name schema
      ensemble.drainer? after := by
  have formed' := formed.change number fun player _ sound => (sound.receive update).1
  refine follows.changeSite formed' reflects (fun player there => ⟨rfl, ?_⟩) ran
  exact Workplace.absent_of_offer (formed.players player (List.mem_of_getElem? there)).manned _

section Sets

variable (follows : next.Follows quiet name schema) (distinct : schema.DistinctFields)
  (defaults : schema.DefaultsFit)

include follows distinct defaults

/-- The members that a submission is still to hand on to get the update one after the other. -/
theorem spread {update : Update} {downs : List Pipeline} {result : Except PipelineError Unit}
    {front back : List (Update × List Pipeline)} (formed : ensemble.Formed schema)
    (reflects : ensemble.Reflects quiet name before)
    (spreading : ensemble.spreading = front ++ (update, downs) :: back)
    (earlier : quiet → ∀ entry ∈ front, entry.2 = []) (inside : ∀ entry ∈ back, entry.2 = [])
    (ran : (downs.forM fun down => next.submit down update).run before = some (result, after)) :
    ∃ later : Ensemble Nat, Leads quiet schema ensemble later ∧ later.set = ensemble.set ∧
      later.drainer? = ensemble.drainer? ∧ later.supplied? = ensemble.supplied? ∧
        (∃ more, later.spreading = front ++ (update, []) :: more ∧ ∀ entry ∈ more, entry.2 = []) ∧
          later.Reflects quiet name after := by
  induction downs generalizing ensemble before back with
  | nil =>
      cases ran
      exact ⟨ensemble, .refl quiet schema ensemble, rfl, rfl, rfl, ⟨back, spreading, inside⟩,
        reflects⟩
  | cons down rest ih =>
      have found : ensemble.spreading[front.length]? = some (update, down :: rest) := by
        rw [spreading, List.getElem?_append_right (Nat.le_refl _), Nat.sub_self]
        rfl
      obtain ⟨number, site, target, delivered⟩ := after_deliver formed found
      obtain ⟨standard, rfl⟩ := Pipeline.eq_site_of_site? site
      have turn : quiet → ensemble.Permits (.deliver front.length) := by
        intro still other _ entry member
        rw [spreading, List.take_left' rfl] at member
        rw [reaches, earlier still entry member]
        rfl
      have handed : ensemble.spreading.set front.length (update, rest) =
          front ++ (update, rest) :: back := by
        rw [spreading, List.set_append_right _ _ (Nat.le_refl _), Nat.sub_self]
        rfl
      have reflects₁ : Ensemble.Reflects quiet name
          { ensemble with spreading := ensemble.spreading.set front.length (update, rest) }
          before :=
        ⟨reflects.set, reflects.sites, reflects.outlets, reflects.plans⟩
      have formed₁ := formed.handedOn found
      rcases Attempt.bind_cases ran with ⟨⟨⟩, middle, submitted, ran⟩ | ⟨error, refused, rfl⟩
      · obtain ⟨-, between, becomes, reflects₂⟩ := follows.submitSite formed₁ reflects₁ submitted
        obtain ⟨new, spread, done⟩ := becomes.spreading
        have first : Leads quiet schema ensemble between :=
          (Leads.single (.deliver front.length) turn delivered).trans becomes.leads
        obtain ⟨later, onward, set, drainers, supplied, more, reflects₃⟩ := by
          refine ih (first.formed distinct defaults formed) reflects₂ ?_
            (List.forall_mem_append.mpr ⟨inside, done⟩) ran
          rw [spread]
          change ensemble.spreading.set front.length (update, rest) ++ new = _
          rw [handed, List.append_assoc]
          rfl
        have kept : between.supplied? = ensemble.supplied? :=
          becomes.supplied.trans (supplied?_change fun _ => rfl)
        exact ⟨later, first.trans onward, set.trans becomes.set, drainers.trans becomes.drainers,
          supplied.trans kept, more, reflects₃⟩
      · cases (follows.submitSite formed₁ reflects₁ refused).1

/-- What is submitted to a set is handed on to the sites one after the other. -/
theorem submitSet_answer (formed : ensemble.Formed schema)
    (reflects : ensemble.Reflects quiet name before)
    (earlier : quiet → ∀ entry ∈ ensemble.spreading, entry.2 = []) {update : Update}
    {result : Except PipelineError Unit}
    (ran : (Deployment.submitToSet next name update).run before = some (result, after)) :
    ensemble.Attains quiet name schema ensemble.drainer? after := by
  obtain ⟨deployment, _, got, ran⟩ := Attempt.lift_bind_cases ran
  cases got
  dsimp only at ran
  rw [reflects.set] at ran
  cases empty : ensemble.set.isEmpty with
  | true =>
      rw [empty] at ran
      cases ran
      exact ⟨ensemble, .refl quiet schema ensemble, reflects⟩
  | false =>
      rw [empty] at ran
      have begun : ensemble.after schema (.submit update) =
          { ensemble with
            submitted := ensemble.submitted ++ [update]
            spreading := ensemble.spreading ++ [(update, ensemble.set.downs)] } := by
        rw [Ensemble.after, empty]
        rfl
      have formed₁ := formed.submit update
      rw [begun] at formed₁
      have first : Leads quiet schema ensemble _ :=
        .single (.submit update) (fun _ => trivial) begun
      obtain ⟨later, onward, set, drainers, supplied, ⟨more, spread, done⟩, reflects₁⟩ :=
        follows.spread distinct defaults formed₁
          ⟨reflects.set, reflects.sites, reflects.outlets, reflects.plans⟩ rfl earlier
          (List.forall_mem_nil _) ran
      refine ⟨later,
        ⟨first.trans onward, set, drainers, supplied, (update, []) :: more, spread, ?_⟩, reflects₁⟩
      exact List.forall_mem_cons.mpr ⟨rfl, done⟩

end Sets

theorem flushSites (follows : next.Follows quiet name schema) {downs : List Pipeline}
    (sites : ∀ down ∈ downs, ∃ number standard, down = .site number standard)
    {result : Except PipelineError Unit}
    (ran : (downs.forM next.flush).run before = some (result, after)) : after = before := by
  induction downs generalizing before with
  | nil =>
      cases ran
      rfl
  | cons down rest ih =>
      obtain ⟨⟨number, standard, rfl⟩, others⟩ := List.forall_mem_cons.mp sites
      rcases Attempt.bind_cases ran with ⟨⟨⟩, middle, flushed, onward⟩ | ⟨error, failed, rfl⟩
      · exact (ih others onward).trans (follows.flushSite flushed)
      · exact follows.flushSite failed

/-- A flush of the set waits for every site, and changes none. -/
theorem flushSet_answer (follows : next.Follows quiet name schema)
    (formed : ensemble.Formed schema) (reflects : ensemble.Reflects quiet name before)
    {result : Except PipelineError Unit}
    (ran : (Deployment.flushSet next name).run before = some (result, after)) :
    after = before := by
  obtain ⟨deployment, _, got, ran⟩ := Attempt.lift_bind_cases ran
  cases got
  rw [reflects.set] at ran
  refine follows.flushSites (fun down among => ?_) ran
  obtain ⟨member, member', rfl⟩ := List.mem_map.mp among
  exact ⟨member.site, Pipeline.eq_site_of_site? (formed.placed member member').1⟩

/-- A site starts from the root of a member that runs already, or else from its own. -/
theorem rootSet_answer (follows : next.Follows quiet name schema)
    (reflects : ensemble.Reflects quiet name before) {player : Player Nat}
    {result : Except PipelineError Node}
    (ran : (Deployment.setRoot next name number (.site number player.standard)).run before =
      some (result, after)) :
    after = before ∧ result.toOption = ensemble.rootFor number player := by
  obtain ⟨deployment, _, got, ran⟩ := Attempt.lift_bind_cases ran
  cases got
  have started : before.hasStarted = ensemble.isRunning := by
    funext other
    have same := reflects.sites other
    rw [Deployment.hasStarted, isRunning]
    cases found : before.stations[other]? with
    | none =>
        rw [found] at same
        rw [Option.map_eq_none_iff.mp same.symm]
    | some own =>
        obtain ⟨player, there, site⟩ := reflects.station found
        rw [there]
        exact congrArg (fun site : Site Nat => site.queue.isStarted) site.symm
  rw [reflects.set, started] at ran
  rw [rootFor]
  cases running : ensemble.set.running? ensemble.isRunning number with
  | none =>
      rw [running] at ran
      exact follows.rootSite ran
  | some other =>
      rw [running] at ran
      obtain ⟨own, _, looked, ran⟩ := Attempt.lift_bind_cases ran
      obtain ⟨rfl, found⟩ := Deployment.station_cases looked
      cases ran
      obtain ⟨player, there, site⟩ := reflects.station found
      refine ⟨rfl, ?_⟩
      dsimp only
      rw [there, ← site]
      rfl

/-- A site that is closed leaves the set. -/
theorem closeSet_answer (follows : next.Follows quiet name schema)
    (reflects : ensemble.Reflects quiet name before) {standard : Option Node}
    (ran : Deployment.closeMember next name number (.site number standard) before =
      some ((), after)) :
    (ensemble.after schema (.leave number)).Reflects quiet name after := by
  obtain ⟨⟨⟩, _, left, ran⟩ := Run.bind_cases ran
  obtain rfl := follows.closeSite ran
  cases left
  refine ⟨?_, reflects.sites, reflects.outlets, reflects.plans⟩
  rw [Deployment.set?, Keyed.lookup_put_self]
  exact congrArg (ReplicaSet.leave · number) reflects.set

/-- Every call is a run of the ensemble if the calls that it leads to are. -/
theorem answer (follows : next.Follows quiet name schema) (distinct : schema.DistinctFields)
    (defaults : schema.DefaultsFit) :
    Follows quiet name schema ⟨fun call => Deployment.answer next call⟩ where
  submitSite formed reflects ran := by
    obtain ⟨⟨⟩, rfl, changed⟩ := Attempt.lift_cases ran
    exact ⟨rfl, follows.submitSite_answer formed reflects changed⟩
  submitSet formed reflects earlier ran :=
    follows.submitSet_answer distinct defaults formed reflects earlier ran
  drain formed reflects arriving ran :=
    follows.drain_answer distinct defaults formed reflects arriving ran
  flushSite ran := by
    obtain ⟨⟨⟩, rfl, waited⟩ := Attempt.lift_cases ran
    exact (Deployment.awaitIdle_cases waited).1.symm
  flushSet formed reflects ran := follows.flushSet_answer formed reflects ran
  rootSite {_ standard _ _ _} ran := by
    cases standard <;> cases ran <;> exact ⟨rfl, rfl⟩
  rootSet reflects ran := follows.rootSet_answer reflects ran
  closeSite ran := by
    cases ran
    rfl
  closeSet reflects ran := follows.closeSet_answer reflects ran

/-- However deep calls may be nested, they do nothing but what an ensemble does. -/
theorem performWithin (quiet : Prop) (name : String) (distinct : schema.DistinctFields)
    (defaults : schema.DefaultsFit) (depth : Nat) :
    Follows quiet name schema ⟨fun call => Deployment.performWithin depth call⟩ := by
  induction depth with
  | zero =>
      constructor
      all_goals
        intros
        rename_i ran
        cases ran
  | succ depth ih => exact ih.answer distinct defaults

/-- Every call of a deployment is a run of the ensemble. -/
theorem caller (quiet : Prop) (name : String) (distinct : schema.DistinctFields)
    (defaults : schema.DefaultsFit) : Follows quiet name schema Deployment.caller :=
  performWithin quiet name distinct defaults Deployment.depthLimit

end Caller.Follows

end StateTree
