/-
Module: StateTree.Proofs.Ensemble
Purpose: The sites of a replica set, step by step. An update that is submitted to one of them is
  handed on to the members there are then, one after the other; hooks submit, sites join, start and
  leave, and drainers go on, in any order in between.
-/
import StateTree.Deployment.Spreading
import StateTree.Proofs.Replication
import StateTree.Proofs.Workplace

namespace StateTree

/-- The site that a pipeline is nothing more than. -/
def Pipeline.site? : Pipeline → Option Nat
  | .site number _ => some number
  | _ => none

/-- A site of a set, with what it has applied since it joined. -/
structure Player (κ : Type) where
  workplace : Workplace κ
  /-- The root that the site has of its own. -/
  standard : Option Node
  /-- The root that the set has supplied, until the site publishes it. -/
  supplied : Option Node
  /-- How many updates had been submitted when the site joined. -/
  joinedAt : Nat
  applied : List Update

namespace Player

variable {κ : Type}

/-- Whether the site has published its first root. -/
def isRunning (player : Player κ) : Bool := player.workplace.site.queue.isStarted

/-- The site starts from the root that was supplied, if it is valid. -/
def launch (schema : Schema) (player : Player κ) : Player κ :=
  match player.supplied with
  | some supplied =>
      let root := schema.polyfill supplied
      match schema.validate root with
      | .ok () =>
          { player with
            workplace := player.workplace.change (player.workplace.site.start root)
            supplied := none }
      | .error _ => { player with supplied := none }
  | none => player

/-- The drainer of the site takes a step. -/
def step (player : Player κ) : Player κ :=
  { player with
    workplace := player.workplace.step
    applied := player.applied ++ player.workplace.drainer.updates }

/-- The site is handed an update. -/
def receive (update : Update) (player : Player κ) : Player κ :=
  { player with workplace := player.workplace.offer (.apply update) }

/-- A hook of the site is registered. -/
def register (name : String) (scope : Accessor) (priority : Int) (payload : κ)
    (player : Player κ) : Player κ :=
  { player with
    workplace :=
      player.workplace.change (player.workplace.site.register name scope priority payload) }

end Player

/-- A step of a set or of one of its sites. -/
inductive EnsembleEvent (κ : Type) where
  | join (name : String) (identity : Identifier) (standard : Option Node)
  /-- A site is supplied with its first root. -/
  | supply (number : Nat)
  | launch (number : Nat)
  | leave (number : Nat)
  /-- Someone, or a hook, begins to submit an update. -/
  | submit (update : Update)
  /-- A submission under way hands its update on to the next member. -/
  | deliver (index : Nat)
  | work (number : Nat)
  | register (number : Nat) (name : String) (scope : Accessor) (priority : Int) (payload : κ)

/-- A set with its sites, also those that have left, and the submissions so far, each with what its
update is still to be handed on to. -/
structure Ensemble (κ : Type) where
  set : ReplicaSet
  players : List (Player κ)
  submitted : List Update
  spreading : List (Update × List Pipeline)

namespace Ensemble

variable {κ : Type}

def empty : Ensemble κ := ⟨.empty, [], [], []⟩

def isRunning (ensemble : Ensemble κ) (number : Nat) : Bool :=
  match ensemble.players[number]? with
  | some player => player.isRunning
  | none => false

/-- The root of a member that runs, or else the site's own. -/
def rootFor (ensemble : Ensemble κ) (number : Nat) (player : Player κ) : Option Node :=
  match ensemble.set.running? ensemble.isRunning number with
  | some other => ensemble.players[other]?.map fun running => running.workplace.site.root
  | none => player.standard

def change (ensemble : Ensemble κ) (number : Nat) (change : Player κ → Player κ) : Ensemble κ :=
  { ensemble with players := ensemble.players.modify number change }

/-- The site that a submission hands its update on to next. -/
def target? (ensemble : Ensemble κ) (index : Nat) : Option Nat :=
  match ensemble.spreading[index]? with
  | some (_, down :: _) => down.site?
  | _ => none

/-- The ensemble after a step. -/
def after (schema : Schema) (ensemble : Ensemble κ) : EnsembleEvent κ → Ensemble κ
  | .join name identity standard =>
      let number := ensemble.players.length
      { ensemble with
        set := ensemble.set.join ⟨number, .site number standard⟩
        players :=
          ensemble.players ++ [⟨⟨.new name identity schema, .absent⟩, standard, none,
            ensemble.submitted.length, []⟩] }
  | .supply number =>
      ensemble.change number fun player =>
        if player.isRunning then player
        else { player with supplied := ensemble.rootFor number player }
  | .launch number => ensemble.change number (Player.launch schema)
  | .leave number => { ensemble with set := ensemble.set.leave number }
  | .submit update =>
      if ensemble.set.isEmpty then ensemble
      else
        { ensemble with
          submitted := ensemble.submitted ++ [update]
          spreading := ensemble.spreading ++ [(update, ensemble.set.downs)] }
  | .deliver index =>
      match ensemble.spreading[index]? with
      | some (update, down :: rest) =>
          let now := { ensemble with spreading := ensemble.spreading.set index (update, rest) }
          match down.site? with
          | some number => now.change number (Player.receive update)
          | none => now
      | _ => ensemble
  | .work number => ensemble.change number Player.step
  | .register number name scope priority payload =>
      ensemble.change number (Player.register name scope priority payload)

/-- The ensemble after steps. -/
def run (schema : Schema) (ensemble : Ensemble κ) (events : List (EnsembleEvent κ)) : Ensemble κ :=
  events.foldl (after schema) ensemble

/-- A submission is still to hand its update on to a site. -/
def reaches (number : Nat) (entry : Update × List Pipeline) : Bool :=
  entry.2.any fun down => down.site? == some number

/-- The updates that are still to be handed on to a site, in the order of submission. -/
def toCome (ensemble : Ensemble κ) (number : Nat) : List Update :=
  (ensemble.spreading.filter (reaches number)).map Prod.fst

end Ensemble

/-! ### Sites -/

theorem WorkQueue.isStarted_claim {α : Type} (queue : WorkQueue α) :
    queue.claim.2.isStarted = queue.isStarted := by
  unfold claim
  split <;> rfl

/-- Updates that are folded into a complete tree leave it complete. -/
theorem Update.complete_foldl {schema : Schema} (distinct : schema.DistinctFields)
    (updates : List Update) {root : Node} (complete : schema.Complete schema.rootType root) :
    schema.Complete schema.rootType (updates.foldl (Update.foldInto schema) root) := by
  induction updates generalizing root with
  | nil => exact complete
  | cons update rest ih =>
      refine ih ?_
      unfold foldInto
      split
      · rename_i after applied
        exact Operation.complete_apply distinct complete applied
      · exact complete

namespace Workplace

theorem isStarted_step {κ : Type} (workplace : Workplace κ) :
    workplace.step.site.queue.isStarted = workplace.site.queue.isStarted := by
  obtain ⟨site, drainer⟩ := workplace
  have taken (queue : WorkQueue (WorkItem κ)) : queue.take.2.isStarted = queue.isStarted := by
    unfold WorkQueue.take
    split <;> rfl
  cases drainer with
  | absent => rfl
  | arriving => exact taken site.queue
  | holding item => exact congrArg WorkQueue.isStarted (process_spec site item).2.2
  | finished => exact taken { site.queue with completed := site.queue.completed + 1 }

end Workplace

namespace Player

variable {κ : Type} {schema : Schema} {player : Player κ}

/-- The root that a site starts from or has. -/
def base (schema : Schema) (player : Player κ) : Option Node :=
  if player.isRunning then some player.workplace.site.root
  else player.supplied.map schema.polyfill

/-- What the root of a site comes to be when all that it owes has been applied, and more after
that. -/
def outlook (schema : Schema) (more : List Update) (player : Player κ) : Option Node :=
  (player.base schema).map ((player.workplace.owed ++ more).foldl (Update.foldInto schema))

/-- What is so of every site of a set. -/
structure Sound (schema : Schema) (player : Player κ) : Prop where
  governed : player.workplace.site.schema = schema
  manned : player.workplace.Manned
  attended : player.workplace.Attended
  asleep : player.isRunning = false → player.workplace.Asleep
  opened : player.isRunning = true → player.supplied = none
  complete : player.isRunning = true →
    schema.Complete schema.rootType player.workplace.site.root

/-- A new site is sound: nothing has been done at it. -/
theorem sound_new (schema : Schema) (name : String) (identity : Identifier)
    (standard : Option Node) (joinedAt : Nat) :
    Sound schema
      (⟨⟨.new name identity schema, .absent⟩, standard, none, joinedAt, []⟩ : Player κ) :=
  ⟨rfl, fun _ => rfl, fun _ => ⟨rfl, fun _ => rfl⟩, fun _ => ⟨rfl, rfl⟩, nofun, nofun⟩

/-- An update that a site is handed comes last. -/
theorem Sound.receive (sound : player.Sound schema) (update : Update) :
    (player.receive update).Sound schema ∧
      (player.receive update).workplace.owed = player.workplace.owed ++ [update] ∧
        (player.receive update).base schema = player.base schema := by
  obtain ⟨manned, owed⟩ := Workplace.offer_spec sound.manned (.apply update)
  have running : (player.receive update).isRunning = player.isRunning :=
    WorkQueue.isStarted_claim _
  refine ⟨⟨sound.governed, manned, Workplace.attended_offer sound.attended _, fun idle => ?_,
    running ▸ sound.opened, running ▸ sound.complete⟩, owed, ?_⟩
  · rw [running] at idle
    exact Workplace.asleep_offer (sound.asleep idle) (.apply update)
  · unfold base
    rw [running]
    rfl

/-- A new hook changes nothing of what is owed at a site, nor what its root comes to be. -/
theorem Sound.register (sound : player.Sound schema) (name : String) (scope : Accessor)
    (priority : Int) (payload : κ) :
    (player.register name scope priority payload).Sound schema ∧
      (player.register name scope priority payload).workplace.owed = player.workplace.owed ∧
        (player.register name scope priority payload).base schema = player.base schema := by
  obtain ⟨manned, owed⟩ := Workplace.register_spec sound.manned name scope priority payload
  have running : (player.register name scope priority payload).isRunning = player.isRunning :=
    WorkQueue.isStarted_claim _
  refine ⟨⟨sound.governed, manned, Workplace.attended_register sound.attended _ _ _ _,
    fun idle => ?_, running ▸ sound.opened, running ▸ sound.complete⟩, owed, ?_⟩
  · rw [running] at idle
    exact Workplace.asleep_register (sound.asleep idle) name scope priority payload
  · unfold base
    rw [running]
    rfl

/-- What the drainer applies is owed no longer, and the outlook stays. -/
theorem Sound.step (distinct : schema.DistinctFields) (sound : player.Sound schema) :
    player.step.Sound schema ∧
      player.step.applied ++ player.step.workplace.owed =
          player.applied ++ player.workplace.owed ∧
        ∀ more, player.step.outlook schema more = player.outlook schema more := by
  have running : player.step.isRunning = player.isRunning :=
    Workplace.isStarted_step player.workplace
  have owed := Workplace.owed_step player.workplace
  obtain ⟨same, root⟩ := Workplace.root_step player.workplace
  rw [sound.governed] at same root
  refine ⟨⟨same, Workplace.manned_step sound.manned, Workplace.attended_step sound.attended,
    fun idle => ?_, running ▸ sound.opened, fun open' => ?_⟩, ?_, fun more => ?_⟩
  · rw [running] at idle
    have asleep := sound.asleep idle
    change player.workplace.step.Asleep
    rw [Workplace.step_of_asleep asleep]
    exact asleep
  · rw [running] at open'
    change schema.Complete schema.rootType player.workplace.step.site.root
    rw [root]
    exact Update.complete_foldl distinct _ (sound.complete open')
  · change player.applied ++ player.workplace.drainer.updates ++ player.workplace.step.owed = _
    rw [owed, List.append_assoc]
  · cases started : player.isRunning with
    | true =>
        rw [outlook, outlook, base, base, running, if_pos started, if_pos started]
        change some ((player.workplace.step.owed ++ more).foldl (Update.foldInto schema)
          player.workplace.step.site.root) = some _
        rw [owed, root, List.append_assoc]
        exact congrArg some List.foldl_append.symm
    | false =>
        have same : player.workplace.step = player.workplace :=
          Workplace.step_of_asleep (sound.asleep started)
        have none : player.step.workplace = player.workplace := same
        unfold outlook base
        rw [running, none]
        rfl

/-- Starting leaves the outlook; a site that cannot start has none. -/
theorem Sound.launch (distinct : schema.DistinctFields) (defaults : schema.DefaultsFit)
    (sound : player.Sound schema) :
    (player.launch schema).Sound schema ∧
      (player.launch schema).applied = player.applied ∧
        (player.launch schema).workplace.owed = player.workplace.owed ∧
          ∀ root, (player.launch schema).base schema = some root →
            player.base schema = some root := by
  unfold Player.launch
  cases held : player.supplied with
  | none => exact ⟨sound, rfl, rfl, fun _ same => same⟩
  | some supplied =>
      have idle : player.isRunning = false := by
        cases running : player.isRunning with
        | false => rfl
        | true => cases held.symm.trans (sound.opened running)
      have asleep := sound.asleep idle
      dsimp only
      cases valid : schema.validate (schema.polyfill supplied) with
      | error error =>
          refine ⟨⟨sound.governed, sound.manned, sound.attended, sound.asleep, fun _ => rfl,
            sound.complete⟩, rfl, rfl, ?_⟩
          intro root same
          unfold base at same
          have waits : (({ player with supplied := none } : Player κ)).isRunning = false := idle
          rw [waits] at same
          cases same
      | ok value =>
          obtain ⟨manned, owed⟩ := Workplace.start_spec sound.manned (schema.polyfill supplied)
          have started : (player.workplace.change
              (player.workplace.site.start (schema.polyfill supplied))).site.queue.isStarted =
                true :=
            WorkQueue.isStarted_claim _
          refine ⟨⟨sound.governed, manned, Workplace.attended_start sound.attended _, ?_,
            fun _ => rfl, fun _ => ?_⟩, rfl, owed, ?_⟩
          · exact fun idle => absurd (started.symm.trans idle) Bool.noConfusion
          · exact Schema.complete_polyfill distinct defaults supplied
          · intro root same
            unfold base at same ⊢
            rw [if_neg (by rw [idle]; exact Bool.noConfusion), held]
            exact (if_pos started).symm.trans same

end Player

/-! ### Sites that are there -/

namespace ReplicaSet

variable {set : ReplicaSet} {isRunning : Nat → Bool} {site other : Nat}

/-- What a set finds is a member of it, and runs. -/
theorem running?_eq_some (found : set.running? isRunning site = some other) :
    isRunning other = true ∧ ∃ member ∈ set.members, member.site = other := by
  obtain ⟨member, first, rfl⟩ := Option.map_eq_some_iff.mp found
  have running := List.find?_some first
  rw [Bool.and_eq_true] at running
  exact ⟨running.2, member, List.mem_of_find?_eq_some first, rfl⟩

theorem running?_eq_none (none : set.running? isRunning site = none) {member : Member}
    (member' : member ∈ set.members) (different : member.site ≠ site) :
    isRunning member.site = false := by
  have asleep := List.find?_eq_none.mp (Option.map_eq_none_iff.mp none) member member'
  simpa [different] using asleep

end ReplicaSet

namespace Ensemble

variable {κ : Type} {schema : Schema} {ensemble : Ensemble κ}

/-- The members, and what submissions are still to reach, are sites that are there. -/
structure Formed (schema : Schema) (ensemble : Ensemble κ) : Prop where
  placed : ∀ member ∈ ensemble.set.members, member.down.site? = some member.site ∧
    member.site < ensemble.players.length
  distinct : (ensemble.set.members.map Member.site).Nodup
  onceEach : ∀ entry ∈ ensemble.spreading, (entry.2.map Pipeline.site?).Nodup
  known : ∀ entry ∈ ensemble.spreading, ∀ down ∈ entry.2,
    ∃ number < ensemble.players.length, down.site? = some number
  players : ∀ player ∈ ensemble.players, player.Sound schema

theorem isRunning_eq {number : Nat} {player : Player κ}
    (there : ensemble.players[number]? = some player) :
    ensemble.isRunning number = player.isRunning := by
  rw [isRunning, there]

theorem getElem?_change (number site : Nat) (change : Player κ → Player κ) :
    (ensemble.change number change).players[site]? =
      if number = site then ensemble.players[site]?.map change else ensemble.players[site]? := by
  rw [Ensemble.change, List.getElem?_modify]
  split <;> simp

/-- What holds of the changed site, and of the others as they are, holds of all. -/
theorem forall_mem_change {number : Nat} {change : Player κ → Player κ}
    {motive : Player κ → Prop}
    (here : ∀ player, ensemble.players[number]? = some player → motive (change player))
    (others : ∀ site player, site ≠ number → ensemble.players[site]? = some player →
      motive player) :
    ∀ player ∈ (ensemble.change number change).players, motive player := by
  intro player member
  obtain ⟨site, found⟩ := List.getElem?_of_mem member
  rw [getElem?_change] at found
  split at found
  · rename_i same
    obtain ⟨before, there, rfl⟩ := Option.map_eq_some_iff.mp found
    exact here before (same ▸ there)
  · rename_i different
    exact others site player (Ne.symm different) found

/-- A change that keeps sites sound keeps the ensemble well formed. -/
theorem Formed.change (formed : ensemble.Formed schema) (number : Nat)
    {change : Player κ → Player κ}
    (sound : ∀ player ∈ ensemble.players, player.Sound schema → (change player).Sound schema) :
    (ensemble.change number change).Formed schema := by
  have length : (ensemble.change number change).players.length = ensemble.players.length :=
    List.length_modify _ _ _
  refine ⟨?_, formed.distinct, formed.onceEach, ?_, ?_⟩
  · rw [length]
    exact formed.placed
  · rw [length]
    exact formed.known
  · refine forall_mem_change (fun player there => ?_) fun site player _ there => ?_
    · have member := List.mem_of_getElem? there
      exact sound player member (formed.players player member)
    · exact formed.players player (List.mem_of_getElem? there)

/-- A submission that has handed on to its next member is still of sites that are there. -/
theorem Formed.handedOn (formed : ensemble.Formed schema) {index : Nat} {update : Update}
    {down : Pipeline} {rest : List Pipeline}
    (found : ensemble.spreading[index]? = some (update, down :: rest)) :
    Formed schema
      { ensemble with spreading := ensemble.spreading.set index (update, rest) } := by
  have member := List.mem_of_getElem? found
  have once := formed.onceEach _ member
  have known := formed.known _ member
  rw [List.map_cons, List.nodup_cons] at once
  refine ⟨formed.placed, formed.distinct, ?_, ?_, formed.players⟩
  · intro entry member
    rcases List.mem_or_eq_of_mem_set member with old | rfl
    · exact formed.onceEach entry old
    · exact once.2
  · intro entry member
    rcases List.mem_or_eq_of_mem_set member with old | rfl
    · exact formed.known entry old
    · exact fun down later => known down (List.mem_cons_of_mem _ later)

/-- A site with the root that it is supplied with, if it has not published one already. -/
def supplied (ensemble : Ensemble κ) (number : Nat) (player : Player κ) : Player κ :=
  if player.isRunning then player else { player with supplied := ensemble.rootFor number player }

theorem supplied_spec (ensemble : Ensemble κ) (number : Nat) (player : Player κ) :
    (ensemble.supplied number player).workplace = player.workplace ∧
      (ensemble.supplied number player).joinedAt = player.joinedAt ∧
        (ensemble.supplied number player).applied = player.applied := by
  unfold supplied
  split <;> exact ⟨rfl, rfl, rfl⟩

/-- A root that a site is supplied with is not published yet, so the site stays sound. -/
theorem sound_supplied (ensemble : Ensemble κ) (number : Nat) {player : Player κ}
    (sound : player.Sound schema) : (ensemble.supplied number player).Sound schema := by
  unfold supplied
  split
  · exact sound
  · rename_i idle
    exact ⟨sound.governed, sound.manned, sound.attended, sound.asleep,
      fun running => absurd running idle, sound.complete⟩

/-- A site that is supplied with a root does not run; all else stays as it is. -/
theorem players_supply {number site : Nat} {now : Player κ}
    (there : (ensemble.after schema (.supply number)).players[site]? = some now) :
    ∃ before, ensemble.players[site]? = some before ∧
      (now = before ∨
        site = number ∧ before.isRunning = false ∧ now = ensemble.supplied number before) := by
  change (ensemble.change number (ensemble.supplied number)).players[site]? = some now at there
  rw [getElem?_change] at there
  split at there
  · rename_i same
    obtain ⟨before, found, rfl⟩ := Option.map_eq_some_iff.mp there
    refine ⟨before, found, ?_⟩
    cases idle : before.isRunning with
    | true => exact Or.inl (by rw [supplied, if_pos idle])
    | false => exact Or.inr ⟨same.symm, rfl, rfl⟩
  · exact ⟨now, there, Or.inl rfl⟩

/-- An ensemble stays well formed when a site joins. -/
theorem Formed.join (formed : ensemble.Formed schema) (name : String) (identity : Identifier)
    (standard : Option Node) :
    (ensemble.after schema (.join name identity standard)).Formed schema := by
  have length : (ensemble.after schema (.join name identity standard)).players.length =
      ensemble.players.length + 1 := List.length_append
  constructor
  · rw [length]
    refine List.forall_mem_append.mpr ⟨fun member old => ?_, List.forall_mem_singleton.mpr ?_⟩
    · obtain ⟨same, inside⟩ := formed.placed member old
      exact ⟨same, Nat.lt_succ_of_lt inside⟩
    · exact ⟨rfl, Nat.lt_succ_self _⟩
  · rw [after, ReplicaSet.join, List.map_append, List.map_singleton, List.nodup_append]
    refine ⟨formed.distinct, List.nodup_singleton _, ?_⟩
    intro site old other new same
    obtain ⟨member, member', rfl⟩ := List.mem_map.mp old
    rw [List.mem_singleton.mp new] at same
    exact absurd same (Nat.ne_of_lt (formed.placed member member').2)
  · exact formed.onceEach
  · intro entry member down later
    obtain ⟨number, inside, target⟩ := formed.known entry member down later
    exact ⟨number, by rw [length]; omega, target⟩
  · exact List.forall_mem_append.mpr
      ⟨formed.players, List.forall_mem_singleton.mpr (Player.sound_new schema _ _ _ _)⟩

theorem Formed.supply (formed : ensemble.Formed schema) (number : Nat) :
    (ensemble.after schema (.supply number)).Formed schema :=
  formed.change number fun _ _ sound => sound_supplied ensemble number sound

theorem Formed.leave (formed : ensemble.Formed schema) (number : Nat) :
    (ensemble.after schema (.leave number)).Formed schema where
  placed member member' := formed.placed member (List.mem_filter.mp member').1
  distinct := formed.distinct.sublist (List.filter_sublist.map Member.site)
  onceEach := formed.onceEach
  known := formed.known
  players := formed.players

/-- It stays so when an update is submitted. -/
theorem Formed.submit (formed : ensemble.Formed schema) (update : Update) :
    (ensemble.after schema (.submit update)).Formed schema := by
  cases empty : ensemble.set.isEmpty with
  | true =>
      rw [after, empty]
      exact formed
  | false =>
      rw [after, empty, if_neg Bool.false_ne_true]
      refine ⟨formed.placed, formed.distinct, ?_, ?_, formed.players⟩
      · refine List.forall_mem_append.mpr ⟨formed.onceEach, List.forall_mem_singleton.mpr ?_⟩
        have sites : ensemble.set.downs.map Pipeline.site? =
            (ensemble.set.members.map Member.site).map some := by
          rw [ReplicaSet.downs, List.map_map, List.map_map]
          exact List.map_congr_left fun member member' => (formed.placed member member').1
        rw [sites]
        exact formed.distinct.map fun _ _ same => Option.some.inj same
      · refine List.forall_mem_append.mpr ⟨formed.known, List.forall_mem_singleton.mpr ?_⟩
        intro down reached
        obtain ⟨member, member', rfl⟩ := List.mem_map.mp reached
        exact ⟨member.site, (formed.placed member member').2, (formed.placed member member').1⟩

/-- A submission has a next member only as a site that is there. -/
theorem after_deliver (formed : ensemble.Formed schema) {index : Nat} {update : Update}
    {down : Pipeline} {rest : List Pipeline}
    (found : ensemble.spreading[index]? = some (update, down :: rest)) :
    ∃ number, down.site? = some number ∧ ensemble.target? index = some number ∧
      ensemble.after schema (.deliver index) =
        Ensemble.change
          { ensemble with spreading := ensemble.spreading.set index (update, rest) } number
          (Player.receive update) := by
  obtain ⟨number, -, target⟩ :=
    formed.known _ (List.mem_of_getElem? found) down List.mem_cons_self
  refine ⟨number, target, ?_, ?_⟩
  · rw [target?, found]
    exact target
  · rw [after, found]
    simp only [target]

theorem Formed.deliver (formed : ensemble.Formed schema) (index : Nat) :
    (ensemble.after schema (.deliver index)).Formed schema := by
  cases found : ensemble.spreading[index]? with
  | none =>
      rw [after, found]
      exact formed
  | some entry =>
      obtain ⟨update, _ | ⟨down, rest⟩⟩ := entry
      · rw [after, found]
        exact formed
      · obtain ⟨number, -, -, stepped⟩ := after_deliver formed found
        rw [stepped]
        exact (formed.handedOn found).change number fun player _ sound => (sound.receive update).1

/-- Every step keeps the ensemble well formed, one lemma for each kind of step. -/
theorem Formed.after (formed : ensemble.Formed schema) (distinct : schema.DistinctFields)
    (defaults : schema.DefaultsFit) (event : EnsembleEvent κ) :
    (ensemble.after schema event).Formed schema := by
  cases event with
  | join name identity standard => exact formed.join name identity standard
  | supply number => exact formed.supply number
  | launch number =>
      exact formed.change number fun player _ sound => (sound.launch distinct defaults).1
  | leave number => exact formed.leave number
  | submit update => exact formed.submit update
  | deliver index => exact formed.deliver index
  | work number => exact formed.change number fun player _ sound => (sound.step distinct).1
  | register number name scope priority payload =>
      exact formed.change number fun player _ sound =>
        (sound.register name scope priority payload).1

/-- A run keeps the ensemble well formed, by induction on its steps. -/
theorem Formed.run (formed : ensemble.Formed schema) (distinct : schema.DistinctFields)
    (defaults : schema.DefaultsFit) (events : List (EnsembleEvent κ)) :
    (ensemble.run schema events).Formed schema := by
  induction events generalizing ensemble with
  | nil => exact formed
  | cons event rest ih => exact ih (formed.after distinct defaults event)

theorem formed_empty (schema : Schema) : (empty : Ensemble κ).Formed schema :=
  ⟨nofun, List.nodup_nil, nofun, nofun, nofun⟩

end Ensemble

end StateTree
