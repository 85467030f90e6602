/-
Module: StateTree.Proofs.Lockstep
Purpose: When the sites of a replica set are in lockstep. Each member applies what was submitted
  since it joined, in that order, as long as no update overtakes another on its way to a member; and
  the members have the same root when they are done, if each of them was supplied with its first
  root while it had been handed just what the member it came from had still to apply.
-/
import StateTree.Deployment.Build
import StateTree.Proofs.Ensemble
import StateTree.View.Record

namespace StateTree

/-! ### Updates on their way -/

namespace Ensemble

variable {κ : Type}

/-- What keeps the members in lockstep: a submission hands on to a member only when no earlier one
is still to do so, and a site is supplied with its first root while it has been handed just what the
member that this comes from has still to apply, or while no other member has a root. -/
def Permits (ensemble : Ensemble κ) : EnsembleEvent κ → Prop
  | .deliver index =>
      ∀ number ∈ ensemble.target? index,
        ∀ entry ∈ ensemble.spreading.take index, reaches number entry = false
  | .supply number =>
      (∀ other ∈ ensemble.set.running? ensemble.isRunning number,
        ∀ player ∈ ensemble.players[number]?, ∀ source ∈ ensemble.players[other]?,
          player.workplace.owed ++ ensemble.toCome number =
            source.workplace.owed ++ ensemble.toCome other) ∧
      (ensemble.set.running? ensemble.isRunning number = none →
        ∀ member ∈ ensemble.set.members, member.site ≠ number →
          ∀ player ∈ ensemble.players[member.site]?, player.supplied = none)
  | _ => True

instance (ensemble : Ensemble κ) (event : EnsembleEvent κ) : Decidable (ensemble.Permits event) :=
  match event with
  | .deliver index =>
      inferInstanceAs (Decidable (∀ number ∈ ensemble.target? index,
        ∀ entry ∈ ensemble.spreading.take index, reaches number entry = false))
  | .supply number =>
      inferInstanceAs (Decidable ((∀ other ∈ ensemble.set.running? ensemble.isRunning number, _) ∧
        (_ → ∀ member ∈ ensemble.set.members, _)))
  | .join _ _ _ | .launch _ | .leave _ | .submit _ | .work _ | .register _ _ _ _ _ =>
      inferInstanceAs (Decidable True)

/-- Each of these events is permitted when it happens. -/
def PermitsAll (schema : Schema) : Ensemble κ → List (EnsembleEvent κ) → Prop
  | _, [] => True
  | ensemble, event :: rest =>
      ensemble.Permits event ∧ (ensemble.after schema event).PermitsAll schema rest

instance decidablePermitsAll (schema : Schema) :
    (ensemble : Ensemble κ) → (events : List (EnsembleEvent κ)) →
      Decidable (ensemble.PermitsAll schema events)
  | _, [] => inferInstanceAs (Decidable True)
  | ensemble, event :: rest =>
      have := decidablePermitsAll schema (ensemble.after schema event) rest
      inferInstanceAs (Decidable (_ ∧ _))

variable {schema : Schema} {ensemble later : Ensemble κ}

theorem permitsAll_append {events more : List (EnsembleEvent κ)} :
    ensemble.PermitsAll schema (events ++ more) ↔
      ensemble.PermitsAll schema events ∧ (ensemble.run schema events).PermitsAll schema more := by
  induction events generalizing ensemble with
  | nil => exact (and_iff_right trivial).symm
  | cons event rest ih => exact (and_congr_right fun _ => ih).trans and_assoc.symm

theorem reaches_of_member {member : Member} (member' : member ∈ ensemble.set.members)
    (placed : member.down.site? = some member.site) (update : Update) :
    reaches member.site (update, ensemble.set.downs) = true := by
  refine List.any_eq_true.mpr ⟨member.down, List.mem_map_of_mem member', ?_⟩
  rw [placed]
  exact beq_self_eq_true _

/-- A submission is to hand on to all members that there are when it begins. -/
theorem toCome_submit {member : Member} (formed : ensemble.Formed schema)
    (member' : member ∈ ensemble.set.members) (update : Update) :
    (ensemble.after schema (.submit update)).toCome member.site =
      ensemble.toCome member.site ++ [update] := by
  have some : ensemble.set.isEmpty = false := by
    rw [ReplicaSet.isEmpty, List.isEmpty_eq_false_iff]
    exact List.ne_nil_of_mem member'
  have reached := reaches_of_member member' (formed.placed member member').1 update
  rw [after, some, if_neg Bool.false_ne_true, toCome, toCome, List.filter_append,
    List.filter_singleton, reached, List.map_append]
  rfl

/-- The next member of a submission comes off. -/
theorem reaches_deliver {update : Update} {down : Pipeline} {rest : List Pipeline} {number : Nat}
    (target : down.site? = some number) (once : ((down :: rest).map Pipeline.site?).Nodup)
    (site : Nat) :
    reaches site (update, down :: rest) = (decide (site = number) || reaches site (update, rest)) ∧
      reaches number (update, rest) = false := by
  constructor
  · rw [reaches, List.any_cons, target]
    congr 1
    rw [Bool.eq_iff_iff, beq_iff_eq, decide_eq_true_iff, Option.some.injEq, eq_comm]
  · rw [reaches, List.any_eq_false]
    intro other member same
    rw [List.map_cons, List.nodup_cons, target] at once
    exact once.1 (List.mem_map.mpr ⟨other, member, beq_iff_eq.mp same⟩)

/-- A member that is handed an update in its turn gets the first of those to come; what is to come
for the others stays. -/
theorem toCome_deliver {index : Nat} {update : Update} {down : Pipeline} {rest : List Pipeline}
    {number : Nat} (formed : ensemble.Formed schema)
    (found : ensemble.spreading[index]? = some (update, down :: rest))
    (target : down.site? = some number)
    (turn : ∀ entry ∈ ensemble.spreading.take index, reaches number entry = false) :
    ensemble.toCome number =
        update :: (ensemble.after schema (.deliver index)).toCome number ∧
      ∀ site ≠ number, (ensemble.after schema (.deliver index)).toCome site =
        ensemble.toCome site := by
  obtain ⟨inside, there⟩ := List.getElem?_eq_some_iff.mp found
  have once := formed.onceEach _ (List.mem_of_getElem? found)
  have was (site : Nat) : ensemble.toCome site =
      ((ensemble.spreading.take index ++
        (update, down :: rest) :: ensemble.spreading.drop (index + 1)).filter (reaches site)).map
          Prod.fst := by
    rw [← there, List.getElem_cons_drop, List.take_append_drop, toCome]
  have now (site : Nat) : (ensemble.after schema (.deliver index)).toCome site =
      ((ensemble.spreading.take index ++
        (update, rest) :: ensemble.spreading.drop (index + 1)).filter (reaches site)).map
          Prod.fst := by
    rw [after, found]
    simp only [target, toCome, change, List.set_eq_take_append_cons_drop, if_pos inside]
  have early : (ensemble.spreading.take index).filter (reaches number) = [] :=
    List.filter_eq_nil_iff.mpr fun entry member => Bool.eq_false_iff.mp (turn entry member)
  constructor
  · obtain ⟨before, after⟩ := reaches_deliver target once number
    rw [now, was, List.filter_append, List.filter_append, early, List.filter_cons,
      List.filter_cons, before, after]
    simp
  · intro site other
    rw [now, was, List.filter_append, List.filter_append, List.filter_cons, List.filter_cons,
      (reaches_deliver target once site).1, decide_eq_false other, Bool.false_or]
    split <;> simp

/-! ### What the members have in common -/

/-- A member after a step, beside the same one before it: all have `extra` to apply in addition. -/
structure GoesOn (schema : Schema) (ensemble later : Ensemble κ) (extra : List Update)
    (number : Nat) (before now : Player κ) : Prop where
  joinedAt : now.joinedAt = before.joinedAt
  order : now.applied ++ now.workplace.owed ++ later.toCome number =
    before.applied ++ before.workplace.owed ++ ensemble.toCome number ++ extra
  outlook : ∀ root, now.outlook schema (later.toCome number) = some root →
    before.outlook schema (ensemble.toCome number ++ extra) = some root

/-- The members apply what was submitted since they joined, in that order, and come to one root. -/
structure InStep (schema : Schema) (ensemble : Ensemble κ) : Prop where
  formed : ensemble.Formed schema
  order : ∀ member ∈ ensemble.set.members, ∀ player,
    ensemble.players[member.site]? = some player →
      player.joinedAt ≤ ensemble.submitted.length ∧
        player.applied ++ player.workplace.owed ++ ensemble.toCome member.site =
          ensemble.submitted.drop player.joinedAt
  agree : ∀ member ∈ ensemble.set.members, ∀ other ∈ ensemble.set.members, ∀ player rival,
    ensemble.players[member.site]? = some player → ensemble.players[other.site]? = some rival →
      ∀ root root', player.outlook schema (ensemble.toCome member.site) = some root →
        rival.outlook schema (ensemble.toCome other.site) = some root' → root = root'

theorem outlook_append (player : Player κ) (more extra : List Update) :
    player.outlook schema (more ++ extra) =
      (player.outlook schema more).map (extra.foldl (Update.foldInto schema)) := by
  rw [Player.outlook, Player.outlook, Option.map_map, ← List.append_assoc]
  congr 1
  funext root
  exact List.foldl_append

/-- When all members go on with the same updates, they stay in step. -/
theorem InStep.goOn (inStep : ensemble.InStep schema) (formed : later.Formed schema)
    (extra : List Update) (submitted : later.submitted = ensemble.submitted ++ extra)
    (goesOn : ∀ member ∈ later.set.members, member ∈ ensemble.set.members ∧
      ∀ now, later.players[member.site]? = some now →
        ∃ before, ensemble.players[member.site]? = some before ∧
          GoesOn schema ensemble later extra member.site before now) :
    later.InStep schema := by
  refine ⟨formed, ?_, ?_⟩
  · intro member member' now there
    obtain ⟨old, earlier⟩ := goesOn member member'
    obtain ⟨before, found, joinedAt, order, -⟩ := earlier now there
    obtain ⟨inside, same⟩ := inStep.order member old before found
    rw [joinedAt, order, same, submitted, List.drop_append_of_le_length inside]
    exact ⟨by rw [List.length_append]; omega, rfl⟩
  · intro member member' other other' player rival there there' root root' outlook outlook'
    obtain ⟨old, earlier⟩ := goesOn member member'
    obtain ⟨before, found, -, -, kept⟩ := earlier player there
    obtain ⟨old', earlier'⟩ := goesOn other other'
    obtain ⟨before', found', -, -, kept'⟩ := earlier' rival there'
    have first := kept root outlook
    have second := kept' root' outlook'
    rw [outlook_append, Option.map_eq_some_iff] at first second
    obtain ⟨base, held, rfl⟩ := first
    obtain ⟨base', held', rfl⟩ := second
    rw [inStep.agree member old other old' before before' found found' base base' held held']

/-! ### Steps -/

theorem InStep.change (inStep : ensemble.InStep schema) (number : Nat)
    {change : Player κ → Player κ}
    (kept : ∀ player ∈ ensemble.players, player.Sound schema →
      (change player).Sound schema ∧ (change player).joinedAt = player.joinedAt ∧
        (change player).applied ++ (change player).workplace.owed =
          player.applied ++ player.workplace.owed ∧
          ∀ more root, (change player).outlook schema more = some root →
            player.outlook schema more = some root) :
    (ensemble.change number change).InStep schema := by
  refine inStep.goOn
    (inStep.formed.change number fun player member sound => (kept player member sound).1) []
    (List.append_nil _).symm fun member member' => ⟨member', fun now there => ?_⟩
  rw [getElem?_change] at there
  split at there
  · obtain ⟨before, found, rfl⟩ := Option.map_eq_some_iff.mp there
    have before' := List.mem_of_getElem? found
    obtain ⟨-, joinedAt, order, outlook⟩ :=
      kept before before' (inStep.formed.players before before')
    refine ⟨before, found, joinedAt, ?_, ?_⟩
    · rw [order, List.append_nil]
      rfl
    · rw [List.append_nil]
      exact outlook _
  · exact ⟨now, there, rfl, (List.append_nil _).symm, by simp [toCome, Ensemble.change]⟩

theorem InStep.leave (inStep : ensemble.InStep schema) (number : Nat) :
    (ensemble.after schema (.leave number)).InStep schema :=
  inStep.goOn (inStep.formed.leave number) [] (List.append_nil _).symm fun _ member' =>
    ⟨(List.mem_filter.mp member').1, fun now there =>
      ⟨now, there, rfl, (List.append_nil _).symm, by simp [toCome, after]⟩⟩

theorem InStep.submit (inStep : ensemble.InStep schema) (update : Update) :
    (ensemble.after schema (.submit update)).InStep schema := by
  have formed := inStep.formed.submit update
  have toCome (member : Member) (member' : member ∈ ensemble.set.members) :=
    toCome_submit inStep.formed member' update
  cases empty : ensemble.set.isEmpty with
  | true =>
      rw [after, empty]
      exact inStep
  | false =>
      rw [after, empty, if_neg Bool.false_ne_true] at toCome formed ⊢
      refine inStep.goOn formed [update] rfl fun member member' => ?_
      refine ⟨member', fun now there => ⟨now, there, rfl, ?_, ?_⟩⟩
      · rw [toCome member member', ← List.append_assoc]
      · rw [toCome member member']
        exact fun _ same => same

theorem InStep.deliver (inStep : ensemble.InStep schema) {index : Nat}
    (permitted : ensemble.Permits (.deliver index)) :
    (ensemble.after schema (.deliver index)).InStep schema := by
  have formed := inStep.formed
  cases found : ensemble.spreading[index]? with
  | none =>
      rw [after, found]
      exact inStep
  | some entry =>
      obtain ⟨update, _ | ⟨down, rest⟩⟩ := entry
      · rw [after, found]
        exact inStep
      · obtain ⟨number, target, next, stepped⟩ := after_deliver formed found
        obtain ⟨first, others⟩ := toCome_deliver formed found target (permitted number next)
        have formed' := formed.deliver index
        rw [stepped] at first others formed' ⊢
        refine inStep.goOn formed' [] (List.append_nil _).symm ?_
        intro member member'
        refine ⟨member', fun now there => ?_⟩
        rw [getElem?_change] at there
        split at there
        · rename_i same
          subst same
          obtain ⟨before, held, rfl⟩ := Option.map_eq_some_iff.mp there
          obtain ⟨-, owed, base⟩ :=
            (formed.players before (List.mem_of_getElem? held)).receive update
          refine ⟨before, held, rfl, ?_, ?_⟩
          · rw [owed, first, List.append_nil]
            simp [Player.receive]
          · unfold Player.outlook
            rw [owed, base, first, List.append_nil, List.append_assoc]
            exact fun _ same => same
        · rename_i other
          refine ⟨now, there, rfl, ?_, ?_⟩
          · rw [others _ (Ne.symm other), List.append_nil]
          · rw [others _ (Ne.symm other), List.append_nil]
            exact fun _ same => same

theorem InStep.join (inStep : ensemble.InStep schema) (name : String) (identity : Identifier)
    (standard : Option Node) :
    (ensemble.after schema (.join name identity standard)).InStep schema := by
  have formed := inStep.formed
  have formed' := formed.join name identity standard
  generalize joined : (⟨⟨.new name identity schema, .absent⟩, standard, none,
    ensemble.submitted.length, []⟩ : Player κ) = newcomer
  have stepped : ensemble.after schema (.join name identity standard) =
      { ensemble with
        set := ensemble.set.join ⟨ensemble.players.length, .site ensemble.players.length standard⟩
        players := ensemble.players ++ [newcomer] } := by
    rw [after, joined]
  rw [stepped] at formed' ⊢
  -- Nothing is on its way to a site that was not there.
  have nothing : ensemble.toCome ensemble.players.length = [] := by
    rw [toCome, List.map_eq_nil_iff, List.filter_eq_nil_iff]
    intro entry member reached
    obtain ⟨down, later, same⟩ := List.any_eq_true.mp reached
    obtain ⟨number, inside, target⟩ := formed.known entry member down later
    rw [target] at same
    exact absurd (Option.some.inj (beq_iff_eq.mp same)) (Nat.ne_of_lt inside)
  have member_cases {member : Member} {player : Player κ}
      (member' : member ∈ (ensemble.set.join ⟨ensemble.players.length,
        .site ensemble.players.length standard⟩).members)
      (there : (ensemble.players ++ [newcomer])[member.site]? = some player) :
      (member ∈ ensemble.set.members ∧ ensemble.players[member.site]? = some player) ∨
        (member.site = ensemble.players.length ∧ player = newcomer) := by
    rcases List.mem_append.mp member' with old | new
    · rw [List.getElem?_append_left (formed.placed member old).2] at there
      exact Or.inl ⟨old, there⟩
    · cases List.mem_singleton.mp new
      rw [List.getElem?_concat_length] at there
      exact Or.inr ⟨rfl, (Option.some.inj there).symm⟩
  have silent (more : List Update) : newcomer.outlook schema more = none := by
    rw [← joined]
    rfl
  refine ⟨formed', ?_, ?_⟩
  · intro member member' player there
    rcases member_cases member' there with ⟨old, there⟩ | ⟨site, rfl⟩
    · exact inStep.order member old player there
    · rw [site]
      change player.joinedAt ≤ ensemble.submitted.length ∧
        player.applied ++ player.workplace.owed ++ ensemble.toCome ensemble.players.length =
          ensemble.submitted.drop player.joinedAt
      rw [nothing, ← joined]
      exact ⟨Nat.le_refl _, (List.drop_length).symm⟩
  · intro member member' other other' player rival there there' root root' outlook outlook'
    rcases member_cases member' there with ⟨old, there⟩ | ⟨-, rfl⟩
    · rcases member_cases other' there' with ⟨old', there'⟩ | ⟨-, rfl⟩
      · exact inStep.agree member old other old' player rival there there' root root' outlook
          outlook'
      · cases (silent _).symm.trans outlook'
    · cases (silent _).symm.trans outlook

theorem outlook_supplied (formed : ensemble.Formed schema) {number other : Nat}
    {player source : Player κ} (idle : player.isRunning = false)
    (there : ensemble.players[other]? = some source) (started : source.isRunning = true)
    (running : ensemble.set.running? ensemble.isRunning number = some other)
    (same : player.workplace.owed ++ ensemble.toCome number =
      source.workplace.owed ++ ensemble.toCome other) :
    (ensemble.supplied number player).outlook schema (ensemble.toCome number) =
      source.outlook schema (ensemble.toCome other) := by
  have root : ensemble.rootFor number player = some source.workplace.site.root := by
    simp only [rootFor, running, there]
    rfl
  have complete := (formed.players source (List.mem_of_getElem? there)).complete started
  have base : source.base schema = some source.workplace.site.root := if_pos started
  have same' : (ensemble.supplied number player) =
      { player with supplied := some source.workplace.site.root } := by
    rw [supplied, idle, if_neg Bool.false_ne_true, root]
  rw [same', Player.outlook, Player.outlook, base, ← same]
  have base' : Player.base schema
      { player with supplied := some source.workplace.site.root } =
        some source.workplace.site.root := by
    have waits : (({ player with supplied := some source.workplace.site.root } :
        Player κ)).isRunning = false := idle
    rw [Player.base, waits, if_neg Bool.false_ne_true]
    exact congrArg some (Schema.polyfill_eq_self complete)
  rw [base']

/-- A root that a member comes to after another site was supplied from a running member is one that
some member came to before. -/
theorem outlook_supply (formed : ensemble.Formed schema) {number other : Nat}
    (running : ensemble.set.running? ensemble.isRunning number = some other)
    (permitted : ensemble.Permits (.supply number)) {member : Member}
    (member' : member ∈ ensemble.set.members) {now : Player κ}
    (there : (ensemble.after schema (.supply number)).players[member.site]? = some now)
    {root : Node} (outlook : now.outlook schema (ensemble.toCome member.site) = some root) :
    ∃ member ∈ ensemble.set.members, ∃ player,
      ensemble.players[member.site]? = some player ∧
        player.outlook schema (ensemble.toCome member.site) = some root := by
  obtain ⟨before, found, rfl | ⟨site, idle, rfl⟩⟩ := players_supply there
  · exact ⟨member, member', now, found, outlook⟩
  · obtain ⟨started, source, source', rfl⟩ := ReplicaSet.running?_eq_some running
    obtain ⟨sender, sent⟩ : ∃ sender, ensemble.players[source.site]? = some sender :=
      ⟨_, List.getElem?_eq_getElem (formed.placed source source').2⟩
    rw [isRunning_eq sent] at started
    rw [site] at found outlook
    rw [outlook_supplied formed idle sent started running
      (permitted.1 source.site running before found sender sent)] at outlook
    exact ⟨source, source', sender, sent, outlook⟩

/-- While no member runs only a site that is supplied comes to a root. -/
theorem site_of_outlook {number : Nat}
    (alone : ensemble.set.running? ensemble.isRunning number = none)
    (permitted : ensemble.Permits (.supply number)) {member : Member}
    (member' : member ∈ ensemble.set.members) {now : Player κ}
    (there : (ensemble.after schema (.supply number)).players[member.site]? = some now)
    {more : List Update} {root : Node} (outlook : now.outlook schema more = some root) :
    member.site = number := by
  refine Classical.byContradiction fun different => ?_
  obtain ⟨before, found, rfl | ⟨site, -⟩⟩ := players_supply there
  · have unsupplied := permitted.2 alone member member' different now found
    have idle := ReplicaSet.running?_eq_none alone member' different
    rw [isRunning_eq found] at idle
    rw [Player.outlook, Player.base, idle, unsupplied] at outlook
    cases outlook
  · exact different site

/-- A site that starts from the root of a member comes to the same root as that one; one that starts
from its own is the only one that has a root. -/
theorem InStep.supply (inStep : ensemble.InStep schema) {number : Nat}
    (permitted : ensemble.Permits (.supply number)) :
    (ensemble.after schema (.supply number)).InStep schema := by
  refine ⟨inStep.formed.supply number, ?_, ?_⟩
  · intro member member' now there
    obtain ⟨before, found, same⟩ := players_supply there
    have order := inStep.order member member' before found
    rcases same with rfl | ⟨-, -, rfl⟩
    · exact order
    · obtain ⟨workplace, joinedAt, applied⟩ := supplied_spec ensemble number before
      rw [workplace, joinedAt, applied]
      exact order
  · intro member member' other other' player rival there there' root root' outlook outlook'
    change player.outlook schema (ensemble.toCome member.site) = some root at outlook
    change rival.outlook schema (ensemble.toCome other.site) = some root' at outlook'
    cases running : ensemble.set.running? ensemble.isRunning number with
    | some source =>
        obtain ⟨member, member', player, there, outlook⟩ :=
          outlook_supply inStep.formed running permitted member' there outlook
        obtain ⟨other, other', rival, there', outlook'⟩ :=
          outlook_supply inStep.formed running permitted other' there' outlook'
        exact inStep.agree member member' other other' player rival there there' root root' outlook
          outlook'
    | none =>
        have site := site_of_outlook running permitted member' there outlook
        have site' := site_of_outlook running permitted other' there' outlook'
        rw [site] at there outlook
        rw [site'] at there' outlook'
        cases there.symm.trans there'
        exact Option.some.inj (outlook.symm.trans outlook')

theorem InStep.after (inStep : ensemble.InStep schema) (distinct : schema.DistinctFields)
    (defaults : schema.DefaultsFit) {event : EnsembleEvent κ} (permitted : ensemble.Permits event) :
    (ensemble.after schema event).InStep schema := by
  cases event with
  | join name identity standard => exact inStep.join name identity standard
  | supply number => exact inStep.supply permitted
  | launch number =>
      refine inStep.change number fun player _ sound => ?_
      obtain ⟨sound', applied, owed, base⟩ := sound.launch distinct defaults
      have joinedAt : (player.launch schema).joinedAt = player.joinedAt := by
        unfold Player.launch
        split
        · dsimp only
          split <;> rfl
        · rfl
      refine ⟨sound', joinedAt, by rw [applied, owed], fun more root outlook => ?_⟩
      rw [Player.outlook, owed] at outlook
      obtain ⟨first, held, rfl⟩ := Option.map_eq_some_iff.mp outlook
      rw [Player.outlook, base first held]
      rfl
  | leave number => exact inStep.leave number
  | submit update => exact inStep.submit update
  | deliver index => exact inStep.deliver permitted
  | work number =>
      refine inStep.change number fun player _ sound => ?_
      obtain ⟨sound', order, outlook⟩ := sound.step distinct
      exact ⟨sound', rfl, order, fun more root same => (outlook more).symm.trans same⟩
  | register number name scope priority payload =>
      refine inStep.change number fun player _ sound => ?_
      obtain ⟨sound', owed, base⟩ := sound.register name scope priority payload
      refine ⟨sound', rfl, by rw [owed]; rfl, fun more root same => ?_⟩
      rw [Player.outlook, owed, base] at same
      exact same

theorem inStep_empty (schema : Schema) : (empty : Ensemble κ).InStep schema :=
  ⟨formed_empty schema, nofun, nofun⟩

theorem InStep.run (inStep : ensemble.InStep schema) (distinct : schema.DistinctFields)
    (defaults : schema.DefaultsFit) {events : List (EnsembleEvent κ)}
    (permitted : ensemble.PermitsAll schema events) :
    (ensemble.run schema events).InStep schema := by
  induction events generalizing ensemble with
  | nil => exact inStep
  | cons event rest ih =>
      obtain ⟨here, later⟩ := permitted
      exact ih (inStep.after distinct defaults here) later

/-- Let sites of one schema join a set, start and leave it, updates be submitted through any of
them, by hooks as well, and drainers go on, in any order that permits all of it. Each member applies
what was submitted since it joined, in that order; and two members that run have the same root
whenever they have nothing left to apply and nothing is still to be handed on to them. -/
theorem in_lockstep {builder : SchemaBuilder} (built : builder.build = .ok schema)
    (distinct : schema.DistinctFields) {events : List (EnsembleEvent κ)}
    (permitted : empty.PermitsAll schema events) :
    (∀ member ∈ (empty.run schema events).set.members, ∀ player,
      (empty.run schema events).players[member.site]? = some player →
        player.applied ++ player.workplace.owed ++ (empty.run schema events).toCome member.site =
          (empty.run schema events).submitted.drop player.joinedAt) ∧
      ∀ member ∈ (empty.run schema events).set.members,
        ∀ other ∈ (empty.run schema events).set.members, ∀ player rival,
          (empty.run schema events).players[member.site]? = some player →
            (empty.run schema events).players[other.site]? = some rival →
              player.isRunning = true → rival.isRunning = true →
                player.workplace.isIdle = true → rival.workplace.isIdle = true →
                  (empty.run schema events).toCome member.site = [] →
                    (empty.run schema events).toCome other.site = [] →
                      player.workplace.site.root = rival.workplace.site.root := by
  have inStep := (inStep_empty schema).run distinct (Schema.defaultsFit_of_build built) permitted
  refine ⟨fun member member' player there => (inStep.order member member' player there).2, ?_⟩
  intro member member' other other' player rival there there' running running' idle idle' none none'
  have settled {number : Nat} {player : Player κ} (running : player.isRunning = true)
      (idle : player.workplace.isIdle = true)
      (none : (empty.run schema events).toCome number = []) :
      player.outlook schema ((empty.run schema events).toCome number) =
        some player.workplace.site.root := by
    rw [none, Player.outlook, Player.base, if_pos running, Workplace.owed_of_isIdle idle]
    rfl
  exact inStep.agree member member' other other' player rival there there' _ _
    (settled running idle none) (settled running' idle' none')

end Ensemble

/-! ### In the sample -/

namespace Sample

/-- Where the label of the target of the sample is. -/
def labelled : Path := ⟨[.name "targets", .name "a", .name "label"]⟩

def relabel (label : String) : Update := ⟨.replacement labelled (.str label), .empty⟩

/-- The label in a tree. -/
def label? (root : Node) : Option Node :=
  ((schema.resolve labelled).bind fun accessor => accessor.get root).toOption

/-- A site starts, another one starts from its root, and both are handed an update. -/
def inTurn : List (EnsembleEvent Unit) :=
  [.join "first" a (some tree), .supply 0, .launch 0, .join "second" b none, .supply 1, .launch 1,
    .submit (relabel "first"), .deliver 0, .work 0, .work 0, .work 0, .deliver 0, .work 1, .work 1,
    .work 1]

theorem inTurn_in_lockstep :
    Ensemble.empty.PermitsAll schema inTurn ∧
      ∃ player rival, (Ensemble.empty.run schema inTurn).players[0]? = some player ∧
        (Ensemble.empty.run schema inTurn).players[1]? = some rival ∧
          label? player.workplace.site.root = some (.str "first") ∧
            player.workplace.site.root = rival.workplace.site.root := by
  have permitted : Ensemble.empty.PermitsAll schema inTurn := by decide +kernel
  have states : (Ensemble.empty.run schema inTurn).players.map (fun player =>
      (player.isRunning, player.workplace.isIdle, label? player.workplace.site.root)) =
        List.replicate 2 (true, true, some (.str "first")) := by
    decide +kernel
  have settled (number : Nat) (inside : number < 2) :
      (Ensemble.empty.run schema inTurn).toCome number = [] ∧
        ∃ member ∈ (Ensemble.empty.run schema inTurn).set.members, member.site = number := by
    revert number
    decide +kernel
  have held (number : Nat) (inside : number < 2) :
      ∃ player, (Ensemble.empty.run schema inTurn).players[number]? = some player ∧
        player.isRunning = true ∧ player.workplace.isIdle = true ∧
          label? player.workplace.site.root = some (.str "first") := by
    have length := congrArg List.length states
    rw [List.length_map, List.length_replicate] at length
    obtain ⟨player, there⟩ : ∃ player,
        (Ensemble.empty.run schema inTurn).players[number]? = some player :=
      ⟨_, List.getElem?_eq_getElem (length ▸ inside)⟩
    have state : (player.isRunning, player.workplace.isIdle,
        label? player.workplace.site.root) = (true, true, some (.str "first")) :=
      List.eq_of_mem_replicate (states ▸ List.mem_map.mpr
        ⟨player, List.mem_of_getElem? there, rfl⟩)
    simp only [Prod.mk.injEq] at state
    exact ⟨player, there, state⟩
  obtain ⟨player, there, running, idle, label⟩ := held 0 (by decide)
  obtain ⟨rival, there', running', idle', -⟩ := held 1 (by decide)
  obtain ⟨none, member, member', site⟩ := settled 0 (by decide)
  obtain ⟨none', other, other', site'⟩ := settled 1 (by decide)
  rw [← site] at there none
  rw [← site'] at there' none'
  refine ⟨permitted, player, rival, site ▸ there, site' ▸ there', label, ?_⟩
  exact (Ensemble.in_lockstep built distinctFields permitted).2 member member' other other' player
    rival there there' running running' idle idle' none none'

/-- Two sites start, a hook of the first one labels the target once more, and then it is
labelled. -/
def relabelling : Attempt Unit := do
  Deployment.build Deployment.caller "a" "first" schema (some tree) [.replicaSet "set"]
  Deployment.build Deployment.caller "b" "second" schema none [.replicaSet "set"]
  match Reference.new 0 schema View.node.reading labelled with
  | .ok scope =>
      Deployment.addHook Deployment.caller 0 0
        ⟨"first", "again", scope, [⟨.submit ⟨(relabel "second").operation, none⟩ none, 1⟩]⟩
  | .error error => throw (.tree error)
  Deployment.caller.submit (.replicaSet "set" 0 (.site 0 (some tree))) (relabel "first")

/-- Both sites run and have nothing to do, and the target is labelled differently. -/
theorem relabelled_apart :
    (relabelling.run.run .empty).map (fun (result, now) =>
      (result.toBool, now.stations.map fun station : Station =>
        (station.site.queue.isStarted, station.site.queue.pending.isEmpty,
          label? station.site.root))) =
      some (true, [(true, true, some (.str "second")), (true, true, some (.str "first"))]) := by
  decide +kernel

end Sample

end StateTree
