/-
Module: StateTree.Proofs.Membership
Purpose: Calls from outside on a deployment whose sites are all of one replica set: sites are built
  and taken out of use, get hooks, and are submitted to. When hooks submit nothing, the sites that
  run have the same root after any of these calls.
-/
import StateTree.Deployment.Build
import StateTree.Proofs.Members

namespace StateTree

/-- What is done with the sites of a set from outside. -/
inductive SetCall where
  | build (key title : String) (standard : Option Node)
  | discard (key : String)
  /-- Submit through the stage that a site joined with, in the set or not any more. -/
  | submit (site : Nat) (down : Pipeline) (update : Update)
  | addHook (site : Nat) (priority : Int) (plan : HookPlan)

namespace SetCall

/-- Make a call; nobody looks at its failure. -/
def perform (name : String) (schema : Schema) : SetCall → Run Unit
  | .build key title standard => do
      let _ ← (Deployment.build Deployment.caller key title schema standard [.replicaSet name]).run
      pure ()
  | .discard key => do
      let _ ← Deployment.discard Deployment.caller key
      pure ()
  | .submit site down update => Deployment.caller.offer (.replicaSet name site down) update
  | .addHook site priority plan => Deployment.addHook Deployment.caller site priority plan

/-- Make calls one after the other. -/
def performAll (name : String) (schema : Schema) (calls : List SetCall) : Run Unit :=
  calls.forM (perform name schema)

/-- No hook that submits anything is added. -/
def isQuiet : SetCall → Bool
  | .addHook _ _ plan => plan.isQuiet
  | _ => true

end SetCall

namespace Ensemble

variable {κ : Type}

/-- Nothing is under way. -/
structure AtRest (ensemble : Ensemble κ) : Prop where
  absent : ∀ player ∈ ensemble.players, player.workplace.drainer = .absent
  handedOn : ∀ entry ∈ ensemble.spreading, entry.2 = []
  unsupplied : ∀ player ∈ ensemble.players, player.supplied = none

/-- The ensemble can come to be that of a deployment in which nothing is under way. -/
def Settles (quiet : Prop) (name : String) (schema : Schema) (ensemble : Ensemble Nat)
    (deployment : Deployment) : Prop :=
  ∃ later : Ensemble Nat, Leads quiet schema ensemble later ∧ later.AtRest ∧
    later.Reflects quiet name deployment

section AtRest

variable {quiet : Prop} {schema : Schema} {ensemble middle later : Ensemble κ}

/-- After a call that leaves the drainers where they were nothing is under way, if nothing was
before. -/
theorem Becomes.atRest (becomes : Becomes quiet schema ensemble.drainer? middle later)
    (absent : ∀ player ∈ ensemble.players, player.workplace.drainer = .absent)
    (handedOn : ∀ entry ∈ middle.spreading, entry.2 = [])
    (unsupplied : ∀ player ∈ middle.players, player.supplied = none) : later.AtRest := by
  constructor
  · intro player member
    obtain ⟨number, there⟩ := List.getElem?_of_mem member
    have same := drainer?_eq there
    rw [becomes.drainers] at same
    obtain ⟨before, found, drainer⟩ := Option.map_eq_some_iff.mp same
    rw [← drainer]
    exact absent before (List.mem_of_getElem? found)
  · obtain ⟨more, spread, done⟩ := becomes.spreading
    rw [spread]
    exact List.forall_mem_append.mpr ⟨handedOn, done⟩
  · intro player member
    obtain ⟨number, there⟩ := List.getElem?_of_mem member
    have same : later.supplied? number = some player.supplied := by
      rw [supplied?, there]
      rfl
    rw [becomes.supplied] at same
    obtain ⟨before, found, supplied⟩ := Option.map_eq_some_iff.mp same
    rw [← supplied]
    exact unsupplied before (List.mem_of_getElem? found)

theorem AtRest.toCome (atRest : ensemble.AtRest) (number : Nat) : ensemble.toCome number = [] := by
  rw [Ensemble.toCome, List.map_eq_nil_iff, List.filter_eq_nil_iff]
  intro entry member
  rw [reaches, atRest.handedOn entry member]
  exact Bool.false_ne_true

/-- A site that runs has nothing to do. -/
theorem AtRest.owed (atRest : ensemble.AtRest) (formed : ensemble.Formed schema)
    {player : Player κ} (member : player ∈ ensemble.players) (running : player.isRunning = true) :
    player.workplace.owed = [] := by
  have absent := atRest.absent player member
  have pending := ((formed.players player member).attended absent).2 running
  rw [Workplace.owed, pending, absent]
  rfl

theorem AtRest.join (atRest : ensemble.AtRest) (title : String) (identity : Identifier)
    (standard : Option Node) :
    (ensemble.after schema (.join title identity standard)).AtRest where
  absent := List.forall_mem_append.mpr ⟨atRest.absent, List.forall_mem_singleton.mpr rfl⟩
  handedOn := atRest.handedOn
  unsupplied := List.forall_mem_append.mpr ⟨atRest.unsupplied, List.forall_mem_singleton.mpr rfl⟩

/-- While nothing is under way a site can be supplied that has not been handed anything. -/
theorem AtRest.permits_supply (atRest : ensemble.AtRest) (formed : ensemble.Formed schema)
    {number : Nat} {player : Player κ} (there : ensemble.players[number]? = some player)
    (nothing : player.workplace.owed = []) : ensemble.Permits (.supply number) := by
  constructor
  · intro other running receiver found source sent
    cases there.symm.trans found
    have started := (ReplicaSet.running?_eq_some running).1
    rw [isRunning_eq sent] at started
    rw [nothing, atRest.toCome, atRest.toCome,
      atRest.owed formed (List.mem_of_getElem? sent) started]
  · intro _ member _ _ other found
    exact atRest.unsupplied other (List.mem_of_getElem? found)

end AtRest

namespace Reflects

variable {quiet : Prop} {name : String} {schema : Schema} {ensemble : Ensemble Nat}
  {before after : Deployment}

theorem length (reflects : ensemble.Reflects quiet name before) :
    before.stations.length = ensemble.players.length := by
  have same (number : Nat) :
      before.stations.length ≤ number ↔ ensemble.players.length ≤ number := by
    rw [← List.getElem?_eq_none_iff, ← List.getElem?_eq_none_iff,
      ← Option.map_eq_none_iff (f := Station.site), reflects.sites number, Option.map_eq_none_iff]
  exact Nat.le_antisymm ((same _).mpr (Nat.le_refl _)) ((same _).mp (Nat.le_refl _))

/-- A site whose pipeline is taken away. -/
theorem putOutlet (reflects : ensemble.Reflects quiet name before) {number : Nat}
    (ran : Deployment.putOutlet number none before = some ((), after)) :
    ensemble.Reflects quiet name after := by
  cases ran
  refine ⟨reflects.set, fun other => ?_, fun other own outlet found held => ?_, reflects.plans⟩
  · rw [← reflects.sites other, List.getElem?_modify]
    cases before.stations[other]? with
    | none => rfl
    | some own =>
        simp only [Option.map_some, Option.map_eq_map]
        split <;> rfl
  · rw [List.getElem?_modify] at found
    obtain ⟨former, there, rfl⟩ := Option.map_eq_some_iff.mp found
    split at held
    · cases held
    · exact reflects.outlets other former outlet there held

end Reflects

end Ensemble

/-! ### Sites out of use -/

namespace Caller.Follows

open Ensemble

variable {quiet : Prop} {name : String} {schema : Schema} {next : Caller}
  {ensemble : Ensemble Nat} {number : Nat} {before after : Deployment}

theorem discard (follows : next.Follows quiet name schema) (atRest : ensemble.AtRest)
    (reflects : ensemble.Reflects quiet name before) {key : String} {found : Bool}
    (ran : Deployment.discard next key before = some (found, after)) :
    ensemble.Settles quiet name schema after := by
  obtain ⟨_, _, got, ran⟩ := Run.bind_cases ran
  cases got
  cases known : before.siteNames.lookup key with
  | none =>
      rw [known] at ran
      cases ran
      exact ⟨ensemble, .refl quiet schema ensemble, atRest, reflects⟩
  | some number =>
      rw [known] at ran
      obtain ⟨⟨⟩, unnamed, dropped, ran⟩ := Run.bind_cases ran
      have reflects₁ : ensemble.Reflects quiet name unnamed := by
        cases dropped
        exact reflects.congr rfl rfl rfl
      obtain ⟨own, _, looked, ran⟩ := Run.bind_cases ran
      obtain ⟨rfl, there⟩ := Deployment.station_cases looked
      cases outlet : own.outlet with
      | none =>
          rw [outlet] at ran
          obtain ⟨⟨⟩, _, unused, ran⟩ := Run.bind_cases ran
          cases ran
          exact ⟨ensemble, .refl quiet schema ensemble, atRest, reflects₁.putOutlet unused⟩
      | some pipeline =>
          rw [outlet] at ran
          obtain ⟨standard, rfl⟩ := reflects₁.outlets number own pipeline there outlet
          obtain ⟨⟨⟩, closed, close, ran⟩ := Run.bind_cases ran
          obtain ⟨⟨⟩, _, unused, ran⟩ := Run.bind_cases ran
          cases ran
          have reflects₂ := follows.closeSet reflects₁ close
          exact ⟨_, .single (.leave number) (fun _ => trivial) rfl,
            ⟨atRest.absent, atRest.handedOn, atRest.unsupplied⟩, reflects₂.putOutlet unused⟩

section Calls

variable (follows : next.Follows quiet name schema)

include follows

theorem addHook (formed : ensemble.Formed schema) (atRest : ensemble.AtRest)
    (reflects : ensemble.Reflects quiet name before) {priority : Int} {plan : HookPlan}
    (silent : quiet → plan.isQuiet = true)
    (ran : Deployment.addHook next number priority plan before = some ((), after)) :
    ensemble.Settles quiet name schema after := by
  obtain ⟨_, _, got, ran⟩ := Run.bind_cases ran
  cases got
  obtain ⟨⟨⟩, planned, added, ran⟩ := Run.bind_cases ran
  have reflects₁ : ensemble.Reflects quiet name planned := by
    cases added
    exact ⟨reflects.set, reflects.sites, reflects.outlets, fun still =>
      List.forall_mem_append.mpr
        ⟨reflects.plans still, List.forall_mem_singleton.mpr (silent still)⟩⟩
  have formed' := formed.change number fun player _ sound =>
    (sound.register plan.name plan.scope.accessor priority before.plans.length).1
  obtain ⟨later, becomes, reflects₂⟩ := follows.changeSite formed' reflects₁
    (fun player there => ⟨rfl, Workplace.absent_of_register
      (formed.players player (List.mem_of_getElem? there)).manned _ _ _ _⟩) ran
  have first : Leads quiet schema ensemble _ :=
    .single (.register number plan.name plan.scope.accessor priority before.plans.length)
      (fun _ => trivial) rfl
  refine ⟨later, first.trans becomes.leads, ?_, reflects₂⟩
  refine becomes.atRest atRest.absent atRest.handedOn
    (forall_mem_change (fun player there => ?_) fun _ player _ there => ?_)
  all_goals exact atRest.unsupplied player (List.mem_of_getElem? there)

theorem offer (formed : ensemble.Formed schema) (atRest : ensemble.AtRest)
    (reflects : ensemble.Reflects quiet name before) {down : Pipeline} {update : Update}
    (ran : next.offer (.replicaSet name number down) update before = some ((), after)) :
    ensemble.Settles quiet name schema after := by
  obtain ⟨result, _, submitted, ran⟩ := Run.bind_cases ran
  cases ran
  obtain ⟨later, becomes, reflects₁⟩ :=
    follows.submitSet formed reflects (fun _ => atRest.handedOn) submitted
  exact ⟨later, becomes.leads,
    becomes.atRest atRest.absent atRest.handedOn atRest.unsupplied, reflects₁⟩

end Calls

end Caller.Follows

/-! ### New sites -/

namespace Ensemble.Reflects

variable {quiet : Prop} {name : String} {schema : Schema} {ensemble : Ensemble Nat}
  {before : Deployment}

/-- A new site with its pipeline, which has joined the set. -/
theorem join (reflects : ensemble.Reflects quiet name before) (title : String)
    (identity : Identifier) (standard : Option Node) {now : Deployment}
    (stations : now.stations = before.stations ++
      [⟨.new title identity schema, some (.replicaSet name before.stations.length
        (.site before.stations.length standard))⟩])
    (set : now.set? name = (before.set? name).join
      ⟨before.stations.length, .site before.stations.length standard⟩)
    (plans : now.plans = before.plans) :
    (ensemble.after schema (.join title identity standard)).Reflects quiet name now := by
  have length := reflects.length
  constructor
  · rw [set, reflects.set, length]
    rfl
  · intro number
    rw [stations]
    change _ = (ensemble.players ++ [_])[number]?.map _
    rcases Nat.lt_or_ge number before.stations.length with inside | outside
    · rw [List.getElem?_append_left inside, List.getElem?_append_left (length ▸ inside)]
      exact reflects.sites number
    · rw [List.getElem?_append_right outside, List.getElem?_append_right (length ▸ outside), length]
      cases number - ensemble.players.length <;> rfl
  · intro number own outlet found held
    rw [stations] at found
    rcases Nat.lt_or_ge number before.stations.length with inside | outside
    · rw [List.getElem?_append_left inside] at found
      exact reflects.outlets number own outlet found held
    · rw [List.getElem?_append_right outside, List.getElem?_singleton] at found
      split at found
      · rename_i first
        cases found
        cases held
        exact ⟨standard, by rw [Nat.le_antisymm (Nat.sub_eq_zero_iff_le.mp first) outside]⟩
      · cases found
  · rw [plans]
    exact reflects.plans

/-- A new site joins the set and gets its pipeline. -/
theorem enter (reflects : ensemble.Reflects quiet name before) (title : String)
    (identity : Identifier) (standard : Option Node) {fresh now : Deployment}
    (stations : fresh.stations = before.stations ++ [⟨.new title identity schema, none⟩])
    (sets : fresh.sets = before.sets) (plans : fresh.plans = before.plans)
    (put : Deployment.putOutlet before.stations.length
        (some (.replicaSet name before.stations.length (.site before.stations.length standard)))
        { fresh with
          sets := Keyed.put name ((fresh.set? name).join
            ⟨before.stations.length, .site before.stations.length standard⟩) fresh.sets } =
      some ((), now)) :
    (ensemble.after schema (.join title identity standard)).Reflects quiet name now := by
  cases put
  refine reflects.join title identity standard ?_ ?_ plans
  · change fresh.stations.modify _ _ = _
    rw [stations, List.modify_eq_set_getElem?]
    simp
  · rw [Deployment.set?, Keyed.lookup_put_self]
    change (fresh.set? name).join _ = _
    rw [Deployment.set?, sets]
    rfl

/-- What does not touch the site leaves the deployment as it is. -/
theorem change_of_site (reflects : ensemble.Reflects quiet name before) {number : Nat}
    {change : Player Nat → Player Nat}
    (same : ∀ player, ensemble.players[number]? = some player →
      (change player).workplace.site = player.workplace.site) :
    (ensemble.change number change).Reflects quiet name before := by
  refine ⟨reflects.set, fun other => ?_, reflects.outlets, reflects.plans⟩
  rw [reflects.sites, getElem?_change]
  split
  · rename_i here
    subst here
    cases there : ensemble.players[number]? with
    | none => rfl
    | some player => exact congrArg some (same player there).symm
  · rfl

end Ensemble.Reflects

theorem Deployment.assembleStack_replicaSet (next : Caller) (site : Nat) (name : String)
    (down : Pipeline) (deployment : Deployment) :
    (assembleStack next site [.replicaSet name] down).run deployment =
      some (.ok (.replicaSet name site down),
        { deployment with
          sets := Keyed.put name ((deployment.set? name).join ⟨site, down⟩) deployment.sets }) := by
  simp only [assembleStack, assemble]
  rfl

theorem Player.launch_of_ok {κ : Type} {schema : Schema} {player : Player κ} {root : Node}
    (held : player.supplied = some root)
    (valid : schema.validate (schema.polyfill root) = .ok ()) :
    player.launch schema =
      { player with
        workplace := player.workplace.change (player.workplace.site.start (schema.polyfill root))
        supplied := none } := by
  rw [launch, held]
  simp only [valid]

theorem Player.launch_of_error {κ : Type} {schema : Schema} {player : Player κ} {root : Node}
    {error : TreeError} (held : player.supplied = some root)
    (invalid : schema.validate (schema.polyfill root) = .error error) :
    player.launch schema = { player with supplied := none } := by
  rw [launch, held]
  simp only [invalid]

namespace Ensemble

variable {κ : Type} {ensemble : Ensemble κ} {number : Nat}

/-- Nothing is under way but that a site has been supplied with a root, if there was one. -/
structure Furnished (ensemble : Ensemble κ) (number : Nat) (root : Option Node) : Prop where
  absent : ∀ player ∈ ensemble.players, player.workplace.drainer = .absent
  handedOn : ∀ entry ∈ ensemble.spreading, entry.2 = []
  here : ∀ player, ensemble.players[number]? = some player → player.supplied = root
  others : ∀ site player, site ≠ number → ensemble.players[site]? = some player →
    player.supplied = none

theorem AtRest.supply (atRest : ensemble.AtRest) (schema : Schema) {player : Player κ}
    (there : ensemble.players[number]? = some player) (idle : player.isRunning = false) :
    (ensemble.after schema (.supply number)).Furnished number (ensemble.rootFor number player) ∧
      (ensemble.after schema (.supply number)).players[number]? =
        some { player with supplied := ensemble.rootFor number player } := by
  have supplied : ensemble.supplied number player =
      { player with supplied := ensemble.rootFor number player } := by
    rw [Ensemble.supplied, idle, if_neg Bool.false_ne_true]
  have there' : (ensemble.after schema (.supply number)).players[number]? =
      some { player with supplied := ensemble.rootFor number player } := by
    change (ensemble.change number (ensemble.supplied number)).players[number]? = _
    rw [getElem?_change, if_pos rfl, there, Option.map_some, supplied]
  refine ⟨⟨?_, atRest.handedOn, ?_, ?_⟩, there'⟩
  · intro other member
    obtain ⟨site, found⟩ := List.getElem?_of_mem member
    obtain ⟨before, held, rfl | ⟨-, -, rfl⟩⟩ := players_supply found
    · exact atRest.absent other (List.mem_of_getElem? held)
    · rw [(supplied_spec ensemble number before).1]
      exact atRest.absent before (List.mem_of_getElem? held)
  · intro other found
    cases there'.symm.trans found
    rfl
  · intro site other different found
    obtain ⟨before, held, rfl | ⟨same, -⟩⟩ := players_supply found
    · exact atRest.unsupplied other (List.mem_of_getElem? held)
    · exact absurd same different

theorem Furnished.atRest (furnished : ensemble.Furnished number none) : ensemble.AtRest := by
  refine ⟨furnished.absent, furnished.handedOn, fun player member => ?_⟩
  obtain ⟨site, found⟩ := List.getElem?_of_mem member
  rcases eq_or_ne site number with rfl | other
  · exact furnished.here player found
  · exact furnished.others site player other found

end Ensemble

namespace Caller.Follows

open Ensemble

variable {quiet : Prop} {name : String} {schema : Schema} {next : Caller}
  {ensemble : Ensemble Nat} {number : Nat} {before after : Deployment}
  (follows : next.Follows quiet name schema) (distinct : schema.DistinctFields)
  (defaults : schema.DefaultsFit)

include follows distinct defaults

/-- A site starts from the root that it has been supplied with, if that is valid. -/
theorem start (formed : ensemble.Formed schema) {root : Node}
    (furnished : ensemble.Furnished number (some root))
    (reflects : ensemble.Reflects quiet name before) {player : Player Nat}
    (there : ensemble.players[number]? = some player) {result : Except PipelineError Unit}
    (ran : ((match schema.validate (schema.polyfill root) with
        | .ok () => liftM (Deployment.changeSite next number (·.start (schema.polyfill root)))
        | .error error => throw (.tree error) : Attempt Unit)).run before = some (result, after)) :
    ensemble.Settles quiet name schema after := by
  have held := furnished.here player there
  have sound := formed.players player (List.mem_of_getElem? there)
  have launches : Leads quiet schema ensemble (ensemble.change number (Player.launch schema)) :=
    .single (.launch number) (fun _ => trivial) rfl
  cases valid : schema.validate (schema.polyfill root) with
  | error error =>
      rw [valid] at ran
      cases ran
      have launched := Player.launch_of_error held valid
      refine ⟨_, launches, ⟨?_, furnished.handedOn, ?_⟩,
        reflects.change_of_site fun other found => ?_⟩
      · refine forall_mem_change (fun other found => ?_) fun _ other _ found =>
          furnished.absent other (List.mem_of_getElem? found)
        cases there.symm.trans found
        rw [launched]
        exact furnished.absent player (List.mem_of_getElem? there)
      · refine forall_mem_change (fun other found => ?_) furnished.others
        cases there.symm.trans found
        rw [launched]
      · cases there.symm.trans found
        rw [launched]
  | ok value =>
      rw [valid] at ran
      obtain ⟨⟨⟩, rfl, changed⟩ := Attempt.lift_cases ran
      have launched := Player.launch_of_ok held valid
      have formed' := formed.change number fun _ _ sound => (sound.launch distinct defaults).1
      obtain ⟨later, becomes, reflects'⟩ := follows.changeSite formed' reflects (by
        intro other found
        cases there.symm.trans found
        rw [launched]
        exact ⟨rfl, Workplace.absent_of_start sound.manned _⟩) changed
      refine ⟨later, launches.trans becomes.leads,
        becomes.atRest furnished.absent furnished.handedOn ?_, reflects'⟩
      refine forall_mem_change (fun other found => ?_) furnished.others
      cases there.symm.trans found
      rw [launched]

/-- A new site joins the set, is supplied with a root and starts from it. -/
theorem launch (formed : ensemble.Formed schema) (atRest : ensemble.AtRest)
    (reflects : ensemble.Reflects quiet name before) {title : String} {identity : Identifier}
    {standard : Option Node} {fresh : Deployment} {result : Except PipelineError Unit}
    (stations : fresh.stations = before.stations ++ [⟨.new title identity schema, none⟩])
    (sets : fresh.sets = before.sets) (plans : fresh.plans = before.plans)
    (ran : (Deployment.launch next before.stations.length standard [.replicaSet name]).run fresh =
      some (result, after)) :
    ensemble.Settles quiet name schema after := by
  have assembled := Deployment.assembleStack_replicaSet next before.stations.length name
    (.site before.stations.length standard) fresh
  obtain ⟨pipeline, _, built, ran⟩ | ⟨error, failed, rfl⟩ := Attempt.bind_cases ran
  on_goal 2 => cases assembled.symm.trans failed
  cases assembled.symm.trans built
  obtain ⟨⟨⟩, joined, put, ran⟩ := Attempt.lift_bind_cases ran
  let number := before.stations.length
  let entered := ensemble.after schema (.join title identity standard)
  let newcomer : Player Nat :=
    ⟨⟨.new title identity schema, .absent⟩, standard, none, ensemble.submitted.length, []⟩
  have reflects₁ : entered.Reflects quiet name joined :=
    reflects.enter title identity standard stations sets plans put
  have formed₁ : entered.Formed schema := formed.join title identity standard
  have atRest₁ : entered.AtRest := atRest.join title identity standard
  have there₁ : entered.players[number]? = some newcomer := by
    change (ensemble.players ++ [newcomer])[before.stations.length]? = some newcomer
    rw [reflects.length, List.getElem?_concat_length]
  -- The newcomer is supplied while nothing is under way.
  have first : Leads quiet schema ensemble (entered.after schema (.supply number)) :=
    (Leads.single (.join title identity standard) (fun _ => trivial) rfl).trans
      (.single (.supply number) (fun _ => atRest₁.permits_supply formed₁ there₁ rfl) rfl)
  have formed₂ := formed₁.supply number
  obtain ⟨furnished, there₂⟩ := atRest₁.supply schema there₁ rfl
  have reflects₂ : (entered.after schema (.supply number)).Reflects quiet name joined :=
    reflects₁.change_of_site fun player _ =>
      congrArg Workplace.site (supplied_spec entered number player).1
  obtain ⟨root, asked, rooted, begins⟩ | ⟨error, failed, rfl⟩ := Attempt.bind_cases ran
  · have spec : asked = joined ∧ (Except.ok root : Except PipelineError Node).toOption =
        entered.rootFor number newcomer := follows.rootSet reflects₁ rooted
    obtain ⟨rfl, supplied⟩ := spec
    rw [← supplied] at furnished
    obtain ⟨own, _, looked, starts⟩ := Attempt.lift_bind_cases begins
    obtain ⟨rfl, found⟩ := Deployment.station_cases looked
    obtain ⟨player, there, same⟩ := reflects₂.station found
    have governed : own.site.schema = schema :=
      same ▸ (formed₂.players player (List.mem_of_getElem? there)).governed
    dsimp only at starts
    rw [governed] at starts
    obtain ⟨later, onward, done, reflects₃⟩ :=
      follows.start distinct defaults formed₂ furnished reflects₂ there starts
    exact ⟨later, first.trans onward, done, reflects₃⟩
  · have spec : after = joined ∧ (Except.error error : Except PipelineError Node).toOption =
        entered.rootFor number newcomer := follows.rootSet reflects₁ failed
    obtain ⟨rfl, supplied⟩ := spec
    rw [← supplied] at furnished
    exact ⟨_, first, Furnished.atRest furnished, reflects₂⟩

end Caller.Follows

namespace Deployment

variable {before after : Deployment}

theorem addSite_cases {title : String} {schema : Schema} {number : Nat}
    (ran : addSite title schema before = some (number, after)) :
    number = before.stations.length ∧ after.sets = before.sets ∧ after.plans = before.plans ∧
      ∃ identity, after.stations = before.stations ++ [⟨.new title identity schema, none⟩] := by
  cases ran
  exact ⟨rfl, rfl, rfl, _, rfl⟩

/-- To end a thread leaves sites, sets and hooks alone. -/
theorem stopThread_cases {id : ThreadId} (ran : stopThread id before = some ((), after)) :
    after.stations = before.stations ∧ after.sets = before.sets ∧ after.plans = before.plans := by
  cases id with
  | main =>
      cases ran
      exact ⟨rfl, rfl, rfl⟩
  | worker number =>
      obtain ⟨state, _, looked, ran⟩ := Run.bind_cases ran
      obtain ⟨rfl, -⟩ := demand_cases looked
      cases ran
      exact ⟨rfl, rfl, rfl⟩
  | subscription number =>
      cases ran
      exact ⟨rfl, rfl, rfl⟩

theorem stopThreads_cases {ids : List ThreadId}
    (ran : ids.forM stopThread before = some ((), after)) :
    after.stations = before.stations ∧ after.sets = before.sets ∧ after.plans = before.plans := by
  induction ids generalizing before with
  | nil =>
      cases ran
      exact ⟨rfl, rfl, rfl⟩
  | cons id rest ih =>
      obtain ⟨⟨⟩, middle, stopped, onward⟩ := Run.bind_cases ran
      obtain ⟨stations, sets, plans⟩ := stopThread_cases stopped
      obtain ⟨stations', sets', plans'⟩ := ih onward
      exact ⟨stations'.trans stations, sets'.trans sets, plans'.trans plans⟩

end Deployment

namespace Caller.Follows

open Ensemble

variable {quiet : Prop} {name : String} {schema : Schema} {next : Caller}
  {ensemble : Ensemble Nat} {before after : Deployment}

theorem build (follows : next.Follows quiet name schema) (distinct : schema.DistinctFields)
    (defaults : schema.DefaultsFit) (formed : ensemble.Formed schema) (atRest : ensemble.AtRest)
    (reflects : ensemble.Reflects quiet name before) {key title : String}
    {standard : Option Node} {result : Except PipelineError Unit}
    (ran : (Deployment.build next key title schema standard [.replicaSet name]).run before =
      some (result, after)) :
    ensemble.Settles quiet name schema after := by
  obtain ⟨found, middle, discarded, ran⟩ := Attempt.lift_bind_cases ran
  obtain ⟨vacant, first, atRest₁, reflects₁⟩ := follows.discard atRest reflects discarded
  obtain ⟨_, _, got, ran⟩ := Attempt.lift_bind_cases ran
  cases got
  obtain ⟨number, fresh, added, ran⟩ := Attempt.lift_bind_cases ran
  obtain ⟨rfl, sets, plans, identity, stations⟩ := Deployment.addSite_cases added
  obtain ⟨launched, _, launch, ran⟩ := Attempt.outcome_bind_cases ran
  obtain ⟨later, onward, atRest₂, reflects₂⟩ :=
    follows.launch distinct defaults (first.formed distinct defaults formed) atRest₁ reflects₁
      stations sets plans launch
  refine ⟨later, first.trans onward, atRest₂, ?_⟩
  cases launched with
  | ok value =>
      cases ran
      exact reflects₂.congr rfl rfl rfl
  | error error =>
      obtain ⟨⟨⟩, _, unused, ran⟩ := Attempt.lift_bind_cases ran
      obtain ⟨⟨⟩, _, abandoned, ran⟩ := Attempt.lift_bind_cases ran
      cases ran
      obtain ⟨_, _, got, stopped⟩ := Run.bind_cases abandoned
      cases got
      obtain ⟨stations, sets, plans⟩ := Deployment.stopThreads_cases stopped
      exact (reflects₂.putOutlet unused).congr stations sets plans

end Caller.Follows

/-! ### Calls one after the other -/

namespace SetCall

open Ensemble

variable {quiet : Prop} {name : String} {schema : Schema} {ensemble : Ensemble Nat}
  {before after : Deployment}

/-- Each call is a run of the ensemble. -/
theorem perform_spec (distinct : schema.DistinctFields) (defaults : schema.DefaultsFit)
    (formed : ensemble.Formed schema) (atRest : ensemble.AtRest)
    (reflects : ensemble.Reflects quiet name before) {call : SetCall}
    (silent : quiet → call.isQuiet = true)
    (ran : call.perform name schema before = some ((), after)) :
    ensemble.Settles quiet name schema after := by
  have follows := Caller.Follows.caller quiet name distinct defaults
  cases call with
  | build key title standard =>
      obtain ⟨result, _, built, ran⟩ := Run.bind_cases ran
      cases ran
      exact follows.build distinct defaults formed atRest reflects built
  | discard key =>
      obtain ⟨found, _, discarded, ran⟩ := Run.bind_cases ran
      cases ran
      exact follows.discard atRest reflects discarded
  | submit site down update => exact follows.offer formed atRest reflects ran
  | addHook site priority plan => exact follows.addHook formed atRest reflects silent ran

theorem performAll_spec (distinct : schema.DistinctFields) (defaults : schema.DefaultsFit)
    (formed : ensemble.Formed schema) (atRest : ensemble.AtRest)
    (reflects : ensemble.Reflects quiet name before) {calls : List SetCall}
    (silent : quiet → ∀ call ∈ calls, call.isQuiet = true)
    (ran : performAll name schema calls before = some ((), after)) :
    ensemble.Settles quiet name schema after := by
  induction calls generalizing ensemble before with
  | nil =>
      cases ran
      exact ⟨ensemble, .refl quiet schema ensemble, atRest, reflects⟩
  | cons call rest ih =>
      obtain ⟨⟨⟩, middle, first, onward⟩ := Run.bind_cases ran
      have here (still : quiet) := (List.forall_mem_cons.mp (silent still)).1
      have there (still : quiet) := (List.forall_mem_cons.mp (silent still)).2
      obtain ⟨between, leads, atRest₁, reflects₁⟩ :=
        perform_spec distinct defaults formed atRest reflects here first
      obtain ⟨later, leads', done⟩ :=
        ih (leads.formed distinct defaults formed) atRest₁ reflects₁ there onward
      exact ⟨later, leads.trans leads', done⟩

end SetCall

namespace Deployment

open Ensemble

variable {name : String} {schema : Schema} {calls : List SetCall} {after : Deployment}

theorem reflects_empty (quiet : Prop) (name : String) :
    (Ensemble.empty : Ensemble Nat).Reflects quiet name Deployment.empty :=
  ⟨rfl, fun _ => rfl, nofun, nofun⟩

/-- Whatever is done with the sites of a set, and whatever hooks submit, is a run of an ensemble.
Each of its steps is permitted if no hook submits anything. -/
theorem run_of_performAll {builder : SchemaBuilder} (built : builder.build = .ok schema)
    (distinct : schema.DistinctFields)
    (ran : SetCall.performAll name schema calls .empty = some ((), after)) :
    ∃ events : List (EnsembleEvent Nat),
      ((∀ call ∈ calls, call.isQuiet = true) → Ensemble.empty.PermitsAll schema events) ∧
        (Ensemble.empty.run schema events).AtRest ∧
          (Ensemble.empty.run schema events).Reflects (∀ call ∈ calls, call.isQuiet = true) name
            after := by
  obtain ⟨later, ⟨events, permitted, rfl⟩, atRest, reflects⟩ :=
    SetCall.performAll_spec distinct (Schema.defaultsFit_of_build built) (formed_empty schema)
      ⟨nofun, nofun, nofun⟩ (reflects_empty _ name) (fun silent => silent) ran
  exact ⟨events, permitted, atRest, reflects⟩

/-- Let sites of one schema be built in a set and taken out of use, get hooks that submit nothing,
and be submitted to. After that the members that run have the same root. -/
theorem members_agree {builder : SchemaBuilder} (built : builder.build = .ok schema)
    (distinct : schema.DistinctFields) (silent : ∀ call ∈ calls, call.isQuiet = true)
    (ran : SetCall.performAll name schema calls .empty = some ((), after))
    {member other : Member} (member' : member ∈ (after.set? name).members)
    (other' : other ∈ (after.set? name).members) {own rival : Station}
    (found : after.stations[member.site]? = some own)
    (found' : after.stations[other.site]? = some rival)
    (running : own.site.queue.isStarted = true) (running' : rival.site.queue.isStarted = true) :
    own.site.root = rival.site.root := by
  obtain ⟨events, permitted, atRest, reflects⟩ := run_of_performAll built distinct ran
  have defaults := Schema.defaultsFit_of_build built
  have inStep := (inStep_empty schema).run distinct defaults (permitted silent)
  have settled {number : Nat} {own : Station} (found : after.stations[number]? = some own)
      (running : own.site.queue.isStarted = true) :
      ∃ player, (Ensemble.empty.run schema events).players[number]? = some player ∧
        player.outlook schema ((Ensemble.empty.run schema events).toCome number) =
          some own.site.root := by
    obtain ⟨player, there, same⟩ := reflects.station found
    have running : player.isRunning = true := by
      rw [Player.isRunning, same]
      exact running
    refine ⟨player, there, ?_⟩
    rw [atRest.toCome, Player.outlook, Player.base, if_pos running,
      atRest.owed inStep.formed (List.mem_of_getElem? there) running, same]
    rfl
  obtain ⟨player, there, outlook⟩ := settled found running
  obtain ⟨player', there', outlook'⟩ := settled found' running'
  rw [reflects.set] at member' other'
  exact inStep.agree member member' other other' player player' there there' _ _ outlook outlook'

end Deployment

/-! ### In the sample -/

namespace Sample

/-- Two sites of a set, and an update that is submitted to the second one. -/
def together : List SetCall :=
  [.build "a" "first" (some tree), .build "b" "second" none,
    .submit 1 (.site 1 none)
      ⟨.replacement ⟨[.name "targets", .name "a", .name "label"]⟩ (.str "both"), .empty⟩]

/-- Both sites apply it. -/
example :
    (SetCall.performAll "set" schema together .empty).map (fun (_, now) =>
      now.stations.map fun station : Station =>
        ((schema.resolve ⟨[.name "targets", .name "a", .name "label"]⟩).bind fun accessor =>
          accessor.get station.site.root).toOption) =
      some [some (.str "both"), some (.str "both")] := by
  decide +kernel

end Sample

end StateTree
