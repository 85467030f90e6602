/-
Module: StateTree.Proofs.Attribution
Purpose: The attributes that updates carry from one hook to the next. Threads submit updates to
  sites under scopes of their own, and whoever drains a site makes the calls of its hooks, which
  submit further updates, to that site or to others. A call runs under the attributes of the update
  that has caused it, and what it submits carries them on, but for the scopes that it opens itself.
-/
import Mathlib.Logic.Function.Basic
import StateTree.Proofs.Typing
import StateTree.Proofs.Workshop

namespace StateTree

variable {κ : Type}

/-! ### Scopes -/

/-- A scope that is to be opened. -/
inductive Opening where
  /-- With one more attribute. -/
  | attribute (key value : String)
  /-- With another context. -/
  | context (context : DiagnosticContext)

namespace Opening

/-- The context inside the scope. -/
def apply : Opening → DiagnosticContext → DiagnosticContext
  | .attribute key value, outside => outside.insert key value
  | .context inside, _ => inside

def enter : Opening → DiagnosticScopes → DiagnosticScopes
  | .attribute key value, scopes => scopes.enterWith key value
  | .context inside, scopes => scopes.enter inside

/-- The context inside scopes, of which the innermost comes first. -/
def applyAll (own : List Opening) (outside : DiagnosticContext) : DiagnosticContext :=
  own.foldr apply outside

def enterAll (own : List Opening) (scopes : DiagnosticScopes) : DiagnosticScopes :=
  own.foldr enter scopes

end Opening

/-- Open the scope that an item of work brings. -/
def WorkItem.enter : WorkItem κ → DiagnosticScopes → DiagnosticScopes
  | .apply update, scopes => scopes.enter update.diagnostics
  | .introduce _, scopes => scopes

def WorkItem.leave : WorkItem κ → DiagnosticScopes → DiagnosticScopes
  | .apply _, scopes => scopes.leave
  | .introduce _, scopes => scopes

/-! ### Threads and sites -/

/-- An item among all that were ever added to the queue of its site. -/
structure ItemId where
  site : Nat
  index : Nat

/-- Where an item comes from that a hook has added: from a call that another item has caused, inside
scopes that the hook has opened, innermost first. -/
structure Cause where
  item : ItemId
  own : List Opening

/-- An item that was added. One that comes from outside has no cause. -/
structure Filed (κ : Type) where
  item : WorkItem κ
  cause : Option Cause

/-- A site, with all items that were ever added to its queue and how many of them were taken. -/
structure Bench (κ : Type) where
  site : Site κ
  added : List (Filed κ)
  taken : Nat

/-- What the drainer of a site is at. -/
inductive Engagement (κ : Type) where
  | arriving
  /-- It has taken an item. -/
  | holding (index : Nat) (item : WorkItem κ)
  /-- It has processed an item, and these calls are to be made. -/
  | calling (index : Nat) (item : WorkItem κ) (due : List (HookCall κ))
  /-- It is inside a hook, which has opened scopes of its own, innermost first. -/
  | inside (index : Nat) (item : WorkItem κ) (due : List (HookCall κ)) (own : List Opening)

/-- A site that a thread drains on behalf of a call that it has made. -/
structure Shift (κ : Type) where
  site : Nat
  /-- The scopes of the thread when it made the call. -/
  entered : DiagnosticScopes
  engagement : Engagement κ

/-- A thread. From inside a hook of one site it may come to drain another one. -/
structure Agent (κ : Type) where
  scopes : DiagnosticScopes
  /-- The sites that it drains, innermost first. -/
  shifts : List (Shift κ)

/-- A call of a hook, with the item that has caused it and the context that it has begun in. -/
structure Called (κ : Type) where
  call : HookCall κ
  cause : ItemId
  context : DiagnosticContext

/-- A call of a site that has returned, with the scopes of its thread before and after. -/
structure Returned where
  before : DiagnosticScopes
  after : DiagnosticScopes

/-- Threads and the sites that they work at. -/
structure Agency (κ : Type) where
  benches : Nat → Bench κ
  agents : List (Agent κ)
  calls : List (Called κ)
  returns : List Returned

/-- What a thread does next, outside of any hook or inside one. -/
inductive AgentAction (κ : Type) where
  | enter (opening : Opening)
  | leave
  | submit (site : Nat) (operation : Operation)
  /-- Put a hook in the registry of a site. -/
  | enlist (site : Nat) (hook : Hook κ)
  /-- Have a site run a hook for all that is there already. -/
  | introduce (site : Nat) (hook : Hook κ)
  | start (site : Nat) (root : Node)
  /-- Go on draining, or return from a hook. -/
  | proceed

namespace Engagement

/-- The item that is being worked on. -/
def item? : Engagement κ → Option (Nat × WorkItem κ)
  | .arriving => none
  | .holding index item | .calling index item _ | .inside index item _ _ => some (index, item)

end Engagement

namespace Agent

/-- What there is to say of an item that the thread adds. -/
def cause? (agent : Agent κ) : Option Cause :=
  match agent.shifts with
  | ⟨site, _, .inside index _ _ own⟩ :: _ => some ⟨⟨site, index⟩, own⟩
  | _ => none

/-- Whether the thread may do what it wants. -/
def isFree (agent : Agent κ) : Bool :=
  match agent.shifts with
  | [] => true
  | shift :: _ =>
      match shift.engagement with
      | .inside _ _ _ _ => true
      | _ => false

/-- The thread opens a scope. -/
def enter (agent : Agent κ) (opening : Opening) : Agent κ :=
  match agent.shifts with
  | ⟨site, entered, .inside index item due own⟩ :: outer =>
      ⟨opening.enter agent.scopes,
        ⟨site, entered, .inside index item due (opening :: own)⟩ :: outer⟩
  | shifts => ⟨opening.enter agent.scopes, shifts⟩

/-- The thread closes the innermost scope; inside a hook, one that the hook has opened. -/
def leave (agent : Agent κ) : Agent κ :=
  match agent.shifts with
  | ⟨_, _, .inside _ _ _ []⟩ :: _ => agent
  | ⟨site, entered, .inside index item due (_ :: own)⟩ :: outer =>
      ⟨agent.scopes.leave, ⟨site, entered, .inside index item due own⟩ :: outer⟩
  | shifts => ⟨agent.scopes.leave, shifts⟩

end Agent

namespace Agency

/-- Threads that have done nothing yet, at sites that nothing was asked of. -/
def new (sites : Nat → Site κ) (agents : Nat) : Agency κ :=
  ⟨fun site => ⟨{ sites site with queue := .empty }, [], 0⟩,
    List.replicate agents ⟨.initial, []⟩, [], []⟩

/-- An item that was added. -/
def filed? (agency : Agency κ) (id : ItemId) : Option (Filed κ) :=
  (agency.benches id.site).added[id.index]?

def item? (agency : Agency κ) (id : ItemId) : Option (WorkItem κ) :=
  (agency.filed? id).map Filed.item

/-- A site has changed. -/
def putBench (agency : Agency κ) (site : Nat) (bench : Bench κ) : Agency κ :=
  { agency with benches := Function.update agency.benches site bench }

def putAgent (agency : Agency κ) (number : Nat) (agent : Agent κ) : Agency κ :=
  { agency with agents := agency.agents.set number agent }

/-- A thread has called a hook. -/
def noteCall (agency : Agency κ) (call : Called κ) : Agency κ :=
  { agency with calls := agency.calls ++ [call] }

/-- A call of a site has returned. -/
def noteReturn (agency : Agency κ) (before after : DiagnosticScopes) : Agency κ :=
  { agency with returns := agency.returns ++ [⟨before, after⟩] }

/-- A thread has called a site. It drains the site if that falls to it, or else the call returns. -/
def ask (agency : Agency κ) (number : Nat) (agent : Agent κ) (site : Nat) (drains : Bool)
    (bench : Bench κ) : Agency κ :=
  if drains then
    (agency.putBench site bench).putAgent number
      { agent with shifts := ⟨site, agent.scopes, .arriving⟩ :: agent.shifts }
  else (agency.putBench site bench).noteReturn agent.scopes agent.scopes

/-- A thread adds an item to the queue of a site. -/
def add (agency : Agency κ) (number : Nat) (agent : Agent κ) (site : Nat) (item : WorkItem κ) :
    Agency κ :=
  let bench := agency.benches site
  let (drains, changed) := bench.site.enqueue item
  agency.ask number agent site drains
    { bench with site := changed, added := bench.added ++ [⟨item, agent.cause?⟩] }

/-- The drainer takes the next item; when there is none, the call that has led to the shift
returns. -/
def take (agency : Agency κ) (number : Nat) (agent : Agent κ) (shift : Shift κ)
    (outer : List (Shift κ)) (next : Site κ → Option (WorkItem κ) × Site κ) : Agency κ :=
  let bench := agency.benches shift.site
  match next bench.site with
  | (some item, site) =>
      let holding : Shift κ := { shift with engagement := .holding bench.taken item }
      (agency.putBench shift.site { bench with site := site, taken := bench.taken + 1 }).putAgent
        number ⟨agent.scopes, holding :: outer⟩
  | (none, site) =>
      ((agency.putBench shift.site { bench with site := site }).putAgent number
        ⟨agent.scopes, outer⟩).noteReturn shift.entered agent.scopes

/-- A thread goes on with its innermost shift. A hook returns when its own scopes are closed. -/
def proceed (agency : Agency κ) (number : Nat) (agent : Agent κ) : Agency κ :=
  match agent.shifts with
  | [] => agency
  | shift :: outer =>
      match shift.engagement with
      | .arriving => agency.take number agent shift outer Site.take
      | .holding index item =>
          let bench := agency.benches shift.site
          let (site, due) := bench.site.process item
          (agency.putBench shift.site { bench with site := site }).putAgent number
            ⟨item.enter agent.scopes, { shift with engagement := .calling index item due } :: outer⟩
      | .calling index item (call :: due) =>
          let inside : Shift κ := { shift with engagement := .inside index item due [] }
          (agency.putAgent number ⟨agent.scopes, inside :: outer⟩).noteCall
            ⟨call, ⟨shift.site, index⟩, agent.scopes.current⟩
      | .calling _ item [] =>
          agency.take number { agent with scopes := item.leave agent.scopes } shift outer
            Site.finish
      | .inside index item due [] =>
          agency.putAgent number
            ⟨agent.scopes, { shift with engagement := .calling index item due } :: outer⟩
      | .inside _ _ _ (_ :: _) => agency

/-- What comes of an action of a thread. -/
def act (agency : Agency κ) (number : Nat) (agent : Agent κ) : AgentAction κ → Agency κ
  | .proceed => agency.proceed number agent
  | action =>
      if agent.isFree then
        match action with
        | .enter opening => agency.putAgent number (agent.enter opening)
        | .leave => agency.putAgent number agent.leave
        | .submit site operation =>
            agency.add number agent site
              (.apply (Draft.capture ⟨operation, none⟩ agent.scopes.current))
        | .enlist site hook =>
            let bench := agency.benches site
            agency.putBench site
              { bench with
                site := { bench.site with hooks := bench.site.hooks.insert hook } }
        | .introduce site hook => agency.add number agent site (.introduce hook)
        | .start site root =>
            let bench := agency.benches site
            let (drains, changed) := bench.site.start root
            agency.ask number agent site drains { bench with site := changed }
        | .proceed => agency
      else agency

/-- What has become of it after the next action, which is of the thread that has a number. -/
def after (agency : Agency κ) (event : Nat × AgentAction κ) : Agency κ :=
  match agency.agents[event.1]? with
  | some agent => agency.act event.1 agent event.2
  | none => agency

/-- Actions of the threads, which may come in any order. -/
def run (agency : Agency κ) (events : List (Nat × AgentAction κ)) : Agency κ :=
  events.foldl after agency

/-- An update stems from another one, which has come from outside, by submissions of hooks that were
made outside scopes of their own. -/
inductive Stems (agency : Agency κ) : ItemId → ItemId → Prop
  | outside {id : ItemId} {update : Update}
      (filed : agency.filed? id = some ⟨.apply update, none⟩) : Stems agency id id
  | submitted {first cause id : ItemId} {update : Update}
      (filed : agency.filed? id = some ⟨.apply update, some ⟨cause, []⟩⟩)
      (earlier : Stems agency first cause) : Stems agency first id

/-- An update descends from another one, which has come from outside, by any submissions of
hooks. -/
inductive Descends (agency : Agency κ) : ItemId → ItemId → Prop
  | outside {id : ItemId} {update : Update}
      (filed : agency.filed? id = some ⟨.apply update, none⟩) : Descends agency id id
  | submitted {first id : ItemId} {update : Update} {cause : Cause}
      (filed : agency.filed? id = some ⟨.apply update, some cause⟩)
      (earlier : Descends agency first cause.item) : Descends agency first id

end Agency

/-! ### What scopes do -/

namespace Opening

/-- A scope that is left again gives back what was before it. -/
theorem leave_enter (opening : Opening) (scopes : DiagnosticScopes) :
    (opening.enter scopes).leave = scopes := by
  cases opening <;> rfl

theorem current_enterAll (own : List Opening) (scopes : DiagnosticScopes) :
    (enterAll own scopes).current = applyAll own scopes.current := by
  induction own with
  | nil => rfl
  | cons opening outer ih =>
      change (opening.enter (enterAll outer scopes)).current = opening.apply (applyAll outer _)
      rw [← ih]
      cases opening <;> rfl

end Opening

theorem WorkItem.leave_enter (item : WorkItem κ) (scopes : DiagnosticScopes) :
    item.leave (item.enter scopes) = scopes := by
  cases item <;> rfl

/-! ### What is so at every moment -/

/-- The scopes of a thread that works on a shift. -/
def Shift.scopes (shift : Shift κ) : DiagnosticScopes :=
  match shift.engagement with
  | .arriving | .holding _ _ => shift.entered
  | .calling _ item _ => item.enter shift.entered
  | .inside _ item _ own => Opening.enterAll own (item.enter shift.entered)

section Records

variable (items : ItemId → Option (WorkItem κ))

/-- The item that a shift is about is the one of its number. -/
def Shift.Knows (shift : Shift κ) : Prop :=
  ∀ index item, shift.engagement.item? = some (index, item) →
    items ⟨shift.site, index⟩ = some item

/-- The scopes of a thread are those of its innermost shift, which it has entered with those of the
next one. -/
def Layered : DiagnosticScopes → List (Shift κ) → Prop
  | _, [] => True
  | scopes, shift :: outer =>
      scopes = shift.scopes ∧ shift.Knows items ∧ Layered shift.entered outer

/-- What a hook has added carries the attributes of the update that has caused its call, as the
scopes of the hook change them. -/
def Filed.Carries (filed : Filed κ) : Prop :=
  ∀ cause, filed.cause = some cause → ∃ item, items cause.item = some item ∧
    ∀ early late, item = .apply early → filed.item = .apply late →
      late.diagnostics = Opening.applyAll cause.own early.diagnostics

/-- A call was made under the attributes of the update that has caused it. -/
def Called.Carries (called : Called κ) : Prop :=
  ∃ item, items called.cause = some item ∧
    ∀ update, item = .apply update → called.context = update.diagnostics

variable {items}

section Growth

variable {later : ItemId → Option (WorkItem κ)}
  (grows : ∀ id item, items id = some item → later id = some item)

include grows

/-- What was so of the items that were there stays so when more are added. -/
theorem Layered.mono {scopes : DiagnosticScopes} {shifts : List (Shift κ)}
    (layered : Layered items scopes shifts) : Layered later scopes shifts := by
  induction shifts generalizing scopes with
  | nil => trivial
  | cons shift outer ih =>
      obtain ⟨same, knows, layered⟩ := layered
      exact ⟨same, fun index item worked => grows _ _ (knows index item worked), ih layered⟩

theorem Filed.Carries.mono {filed : Filed κ} (carries : filed.Carries items) :
    filed.Carries later := by
  intro cause caused
  obtain ⟨item, there, same⟩ := carries cause caused
  exact ⟨item, grows _ _ there, same⟩

theorem Called.Carries.mono {called : Called κ} (carries : called.Carries items) :
    called.Carries later := by
  obtain ⟨item, there, same⟩ := carries
  exact ⟨item, grows _ _ there, same⟩

end Growth

/-- What a thread adds carries on the attributes of the update that it works on. -/
theorem Layered.carries {agent : Agent κ} (layered : Layered items agent.scopes agent.shifts)
    {item : WorkItem κ}
    (captured : ∀ update, item = .apply update → update.diagnostics = agent.scopes.current) :
    Filed.Carries items ⟨item, agent.cause?⟩ := by
  obtain ⟨scopes, shifts⟩ := agent
  intro cause caused
  simp only [Agent.cause?] at caused
  split at caused
  · cases caused
    rename_i site entered index worked due own outer
    obtain ⟨same, knows, -⟩ := layered
    refine ⟨worked, knows index worked rfl, fun early late is added => ?_⟩
    rw [captured late added, same, is]
    exact Opening.current_enterAll own _
  · cases caused

/-- A thread that opens a scope of its own, or leaves one, is in the scopes of its shifts as
before. -/
theorem Layered.enter {agent : Agent κ} (layered : Layered items agent.scopes agent.shifts)
    (free : agent.isFree = true) (opening : Opening) :
    Layered items (agent.enter opening).scopes (agent.enter opening).shifts := by
  obtain ⟨scopes, shifts⟩ := agent
  cases shifts with
  | nil => trivial
  | cons shift outer =>
      obtain ⟨site, entered, engagement⟩ := shift
      obtain ⟨same, knows, below⟩ := layered
      cases engagement with
      | inside index item due own => exact ⟨congrArg opening.enter same, knows, below⟩
      | _ => cases free

theorem Layered.leave {agent : Agent κ} (layered : Layered items agent.scopes agent.shifts)
    (free : agent.isFree = true) :
    Layered items agent.leave.scopes agent.leave.shifts := by
  obtain ⟨scopes, shifts⟩ := agent
  cases shifts with
  | nil => trivial
  | cons shift outer =>
      obtain ⟨site, entered, engagement⟩ := shift
      cases engagement with
      | inside index item due own =>
          cases own with
          | nil => exact layered
          | cons opening own =>
              obtain ⟨same, knows, below⟩ := layered
              exact ⟨(congrArg DiagnosticScopes.leave same).trans (opening.leave_enter _), knows,
                below⟩
      | _ => cases free

end Records

/-! ### Queues -/

theorem WorkQueue.pending_claim {α : Type} (queue : WorkQueue α) :
    queue.claim.2.pending = queue.pending := by
  rcases Workplace.claim_cases queue with ⟨-, same⟩ | ⟨-, -, same⟩ <;> rw [same]

/-- Whoever takes an item takes the first that waits, or finds none. -/
theorem WorkQueue.take_cases {α : Type} (queue : WorkQueue α) :
    (∃ later, queue.take = (none, later) ∧ later.pending = queue.pending) ∨
      ∃ item later, queue.take = (some item, later) ∧ queue.pending = item :: later.pending := by
  unfold take
  cases queue.pending with
  | nil => exact .inl ⟨_, rfl, rfl⟩
  | cons item rest => exact .inr ⟨item, _, rfl, rfl⟩

/-- The items that wait are those that were added and not taken. -/
structure Bench.Tallied (bench : Bench κ) : Prop where
  pending : bench.site.queue.pending = (bench.added.drop bench.taken).map Filed.item
  within : bench.taken ≤ bench.added.length

namespace Bench

variable {bench : Bench κ} (tallied : bench.Tallied)

include tallied

theorem Tallied.of_pending (site : Site κ)
    (pending : site.queue.pending = bench.site.queue.pending) :
    Tallied { bench with site := site } := ⟨pending.trans tallied.pending, tallied.within⟩

/-- An item that is added is counted as the last one. -/
theorem Tallied.enqueue (filed : Filed κ) :
    Tallied
      { bench with
        site := (bench.site.enqueue filed.item).2
        added := bench.added ++ [filed] } := by
  have pending : (bench.site.enqueue filed.item).2.queue.pending =
      bench.site.queue.pending ++ [filed.item] := WorkQueue.pending_claim _
  refine ⟨?_, ?_⟩
  · rw [pending, tallied.pending, List.drop_append_of_le_length tallied.within, List.map_append]
    rfl
  · rw [List.length_append]
    exact Nat.le_add_right_of_le tallied.within

/-- The first item that waits is the next one that was added. -/
theorem Tallied.next (site : Site κ) {item : WorkItem κ}
    (waits : bench.site.queue.pending = item :: site.queue.pending) :
    (bench.added[bench.taken]?).map Filed.item = some item ∧
      Tallied { bench with site := site, taken := bench.taken + 1 } := by
  have pending := tallied.pending
  rw [waits] at pending
  obtain ⟨filed, following, left, same, remaining⟩ := List.map_eq_cons_iff.mp pending.symm
  have first : bench.added[bench.taken]? = some filed := by
    rw [← List.head?_drop, left]
    rfl
  refine ⟨by rw [first, ← same]; rfl, ?_, (List.getElem?_eq_some_iff.mp first).1⟩
  rw [← List.tail_drop, left]
  exact remaining.symm

end Bench

/-! ### Every action keeps it so -/

namespace Agency

/-- What is so at every moment. -/
structure Faithful (agency : Agency κ) : Prop where
  benches : ∀ site, (agency.benches site).Tallied
  agents : ∀ agent ∈ agency.agents, Layered agency.item? agent.scopes agent.shifts
  filed : ∀ site, ∀ filed ∈ (agency.benches site).added, filed.Carries agency.item?
  calls : ∀ called ∈ agency.calls, called.Carries agency.item?
  returns : ∀ returned ∈ agency.returns, returned.after = returned.before

/-- What is put at a site is found there. -/
theorem benches_putBench_self (agency : Agency κ) (site : Nat) (bench : Bench κ) :
    (agency.putBench site bench).benches site = bench := Function.update_self ..

theorem benches_putBench_of_ne (agency : Agency κ) {site other : Nat} (different : other ≠ site)
    (bench : Bench κ) : (agency.putBench site bench).benches other = agency.benches other :=
  Function.update_of_ne different ..

/-- The items of a site stay where they are when others are added behind them. -/
theorem item?_putBench {agency : Agency κ} {site : Nat} {bench : Bench κ}
    (added : (agency.benches site).added <+: bench.added) {id : ItemId} {item : WorkItem κ}
    (there : agency.item? id = some item) : (agency.putBench site bench).item? id = some item := by
  by_cases same : id.site = site
  · obtain ⟨more, onward⟩ := added
    obtain ⟨filed, found, is⟩ := Option.map_eq_some_iff.mp there
    have here : (agency.putBench site bench).filed? id = some filed := by
      rw [filed?, same] at found
      have inside := (List.getElem?_eq_some_iff.mp found).1
      rw [filed?, same, benches_putBench_self, ← onward,
        List.getElem?_append_left inside, found]
    rw [item?, here, ← is]
    rfl
  · rw [item?, filed?, benches_putBench_of_ne agency same]
    exact there

/-- Items that are added at a site change nothing for those that were added before. -/
theorem layered_putBench {agency : Agency κ} {scopes : DiagnosticScopes} {shifts : List (Shift κ)}
    (layered : Layered agency.item? scopes shifts) {site : Nat} {bench : Bench κ}
    (added : (agency.benches site).added <+: bench.added) :
    Layered (agency.putBench site bench).item? scopes shifts :=
  layered.mono fun _ _ => item?_putBench added

theorem faithful_new (sites : Nat → Site κ) (agents : Nat) : (new sites agents).Faithful where
  benches _ := ⟨rfl, Nat.le_refl 0⟩
  agents agent member := by
    rw [List.eq_of_mem_replicate member]
    trivial
  filed _ _ member := absurd member List.not_mem_nil
  calls _ member := absurd member List.not_mem_nil
  returns _ member := absurd member List.not_mem_nil

namespace Faithful

variable {agency : Agency κ} (faithful : agency.Faithful)

include faithful

theorem putAgent {number : Nat} (agent : Agent κ)
    (layered : Layered agency.item? agent.scopes agent.shifts) :
    (agency.putAgent number agent).Faithful := by
  refine ⟨faithful.benches, fun other member => ?_, faithful.filed, faithful.calls,
    faithful.returns⟩
  rcases List.mem_or_eq_of_mem_set member with before | same
  · exact faithful.agents other before
  · rw [same]
    exact layered

/-- A site may get more items, each with the attributes that it was submitted under. -/
theorem putBench {site : Nat} {bench : Bench κ} {more : List (Filed κ)}
    (added : bench.added = (agency.benches site).added ++ more) (tallied : bench.Tallied)
    (carries : ∀ filed ∈ more, filed.Carries agency.item?) :
    (agency.putBench site bench).Faithful := by
  have grows (id : ItemId) (item : WorkItem κ) (there : agency.item? id = some item) :
      (agency.putBench site bench).item? id = some item :=
    item?_putBench ⟨more, added.symm⟩ there
  refine ⟨fun other => ?_, fun agent member => (faithful.agents agent member).mono grows,
    fun other filed member => ?_, fun called member => (faithful.calls called member).mono grows,
    faithful.returns⟩
  · by_cases same : other = site
    · rw [same, benches_putBench_self]
      exact tallied
    · rw [benches_putBench_of_ne agency same]
      exact faithful.benches other
  · refine Filed.Carries.mono grows ?_
    by_cases same : other = site
    · rw [same, benches_putBench_self, added] at member
      exact (List.mem_append.mp member).elim (faithful.filed site filed) (carries filed)
    · rw [benches_putBench_of_ne agency same] at member
      exact faithful.filed other filed member

theorem keepBench {site : Nat} {bench : Bench κ} (tallied : bench.Tallied)
    (added : bench.added = (agency.benches site).added) :
    (agency.putBench site bench).Faithful :=
  faithful.putBench (added.trans (List.append_nil _).symm) tallied nofun

/-- A call that is noted with the attributes of its item keeps the records faithful. -/
theorem noteCall {call : Called κ} (carries : call.Carries agency.item?) :
    (agency.noteCall call).Faithful := by
  refine ⟨faithful.benches, faithful.agents, faithful.filed, fun called member => ?_,
    faithful.returns⟩
  rcases List.mem_append.mp member with before | last
  · exact faithful.calls called before
  · rw [List.mem_singleton.mp last]
    exact carries

theorem noteReturn {before after : DiagnosticScopes} (same : after = before) :
    (agency.noteReturn before after).Faithful := by
  refine ⟨faithful.benches, faithful.agents, faithful.filed, faithful.calls,
    fun returned member => ?_⟩
  rcases List.mem_append.mp member with early | last
  · exact faithful.returns returned early
  · rw [List.mem_singleton.mp last]
    exact same

/-- A call of a site leaves all so, when it has changed the site as it may. -/
theorem ask {number : Nat} {agent : Agent κ} {site : Nat} (drains : Bool) {bench : Bench κ}
    {more : List (Filed κ)} (layered : Layered agency.item? agent.scopes agent.shifts)
    (added : bench.added = (agency.benches site).added ++ more) (tallied : bench.Tallied)
    (carries : ∀ filed ∈ more, filed.Carries agency.item?) :
    (agency.ask number agent site drains bench).Faithful := by
  have put := faithful.putBench added tallied carries
  unfold Agency.ask
  split
  · refine put.putAgent _ ⟨rfl, nofun, ?_⟩
    exact layered_putBench layered ⟨more, added.symm⟩
  · exact put.noteReturn rfl

/-- What a thread adds carries the attributes that the thread has. -/
theorem add {number : Nat} {agent : Agent κ}
    (layered : Layered agency.item? agent.scopes agent.shifts) (site : Nat) {item : WorkItem κ}
    (captured : ∀ update, item = .apply update → update.diagnostics = agent.scopes.current) :
    (agency.add number agent site item).Faithful := by
  refine faithful.ask _ layered rfl ((faithful.benches site).enqueue ⟨item, agent.cause?⟩) ?_
  intro filed member
  rw [List.mem_singleton.mp member]
  exact layered.carries captured

/-- The drainer takes the next item, or the call that it has made returns with the scopes that it
was made with. -/
theorem take {number : Nat} {agent : Agent κ} {shift : Shift κ} {outer : List (Shift κ)}
    (scopes : agent.scopes = shift.entered) (layered : Layered agency.item? shift.entered outer)
    {next : Site κ → Option (WorkItem κ) × Site κ} (queue : WorkQueue (WorkItem κ))
    (takes : next (agency.benches shift.site).site =
      (queue.take.1, { (agency.benches shift.site).site with queue := queue.take.2 }))
    (pending : queue.pending = (agency.benches shift.site).site.queue.pending) :
    (agency.take number agent shift outer next).Faithful := by
  have tallied := faithful.benches shift.site
  unfold Agency.take
  simp only [takes]
  rcases queue.take_cases with ⟨later, taken, left⟩ | ⟨item, later, taken, left⟩
  · simp only [taken]
    have put := faithful.keepBench (tallied.of_pending
      { (agency.benches shift.site).site with queue := later } (left.trans pending)) rfl
    refine (put.putAgent _ ?_).noteReturn scopes
    simp only [scopes]
    exact layered_putBench layered List.prefix_rfl
  · simp only [taken]
    obtain ⟨first, tallied⟩ := tallied.next
      { (agency.benches shift.site).site with queue := later } (pending.symm.trans left)
    have put := faithful.keepBench tallied rfl
    refine put.putAgent _ ⟨scopes, fun index other worked => ?_, ?_⟩
    · cases worked
      refine item?_putBench ?_ first
      exact List.prefix_rfl
    · exact layered_putBench layered List.prefix_rfl

theorem proceed {number : Nat} {agent : Agent κ}
    (layered : Layered agency.item? agent.scopes agent.shifts) :
    (agency.proceed number agent).Faithful := by
  obtain ⟨scopes, shifts⟩ := agent
  cases shifts with
  | nil => exact faithful
  | cons shift outer =>
      obtain ⟨site, entered, engagement⟩ := shift
      obtain ⟨same, knows, below⟩ := layered
      cases engagement with
      | arriving => exact faithful.take same below (agency.benches site).site.queue rfl rfl
      | holding index item =>
          have pending : ((agency.benches site).site.process item).1.queue.pending =
              (agency.benches site).site.queue.pending := by
            rw [Site.process_eq_effect]
          have put := faithful.keepBench
            ((faithful.benches site).of_pending _ pending) rfl
          refine put.putAgent _ ⟨congrArg item.enter same, fun _ _ worked => ?_, ?_⟩
          · refine item?_putBench ?_ (knows _ _ worked)
            exact List.prefix_rfl
          · exact layered_putBench below List.prefix_rfl
      | calling index item due =>
          cases due with
          | nil =>
              refine faithful.take ?_ below
                { (agency.benches site).site.queue with
                  completed := (agency.benches site).site.queue.completed + 1 } rfl rfl
              exact (congrArg item.leave same).trans (item.leave_enter entered)
          | cons call due =>
              let inside : Shift κ := ⟨site, entered, .inside index item due []⟩
              refine (faithful.putAgent ⟨scopes, inside :: outer⟩ ⟨same, knows, below⟩).noteCall
                ⟨item, knows index item rfl, fun update is => ?_⟩
              rw [is] at same
              exact congrArg DiagnosticScopes.current same
      | inside index item due own =>
          cases own with
          | nil => exact faithful.putAgent _ ⟨same, knows, below⟩
          | cons opening own => exact faithful

/-- Whichever action a thread takes, the records stay faithful; one case for each kind of action. -/
theorem act {number : Nat} {agent : Agent κ}
    (layered : Layered agency.item? agent.scopes agent.shifts) (action : AgentAction κ) :
    (agency.act number agent action).Faithful := by
  cases action with
  | proceed => exact faithful.proceed layered
  | enter opening =>
      simp only [Agency.act]
      split
      · rename_i free
        exact faithful.putAgent _ (layered.enter free opening)
      · exact faithful
  | leave =>
      simp only [Agency.act]
      split
      · rename_i free
        exact faithful.putAgent _ (layered.leave free)
      · exact faithful
  | submit site operation =>
      simp only [Agency.act]
      split
      · refine faithful.add layered site fun update is => ?_
        cases is
        rfl
      · exact faithful
  | enlist site hook =>
      simp only [Agency.act]
      split
      · exact faithful.keepBench ((faithful.benches site).of_pending _ rfl) rfl
      · exact faithful
  | introduce site hook =>
      simp only [Agency.act]
      split
      · exact faithful.add layered site nofun
      · exact faithful
  | start site root =>
      simp only [Agency.act]
      split
      · have pending : ((agency.benches site).site.start root).2.queue.pending =
            (agency.benches site).site.queue.pending := WorkQueue.pending_claim _
        exact faithful.ask _ layered (List.append_nil _).symm
          ((faithful.benches site).of_pending _ pending) nofun
      · exact faithful

theorem after (event : Nat × AgentAction κ) : (agency.after event).Faithful := by
  unfold Agency.after
  split
  · rename_i agent found
    exact faithful.act (faithful.agents agent (List.mem_of_getElem? found)) event.2
  · exact faithful

/-- A whole run leaves all so, by induction on its actions. -/
theorem run (events : List (Nat × AgentAction κ)) : (agency.run events).Faithful := by
  induction events generalizing agency with
  | nil => exact faithful
  | cons event rest ih => exact ih (faithful.after event)

end Faithful

/-- Attributes follow the causal chain. Let any threads open and close scopes, submit updates to any
sites, register hooks, and drain, in any order, and let hooks open scopes of their own and submit
updates as they like. Then a call that an update has caused begins under the attributes of that
update, and inside scopes of its own the hook has these as the scopes change them. An update that is
submitted from the call carries just these: outside scopes of its own, those of the update that has
caused the call. So all that stems from an update from outside carries the attributes of that one.
And when a call of a site returns, its thread has the scopes that it had before. -/
theorem attributes_follow (sites : Nat → Site κ) (agents : Nat)
    (events : List (Nat × AgentAction κ)) :
    let agency := (new sites agents).run events
    (∀ called ∈ agency.calls, ∃ item, agency.item? called.cause = some item ∧
        ∀ update, item = .apply update → called.context = update.diagnostics) ∧
      (∀ agent ∈ agency.agents, ∀ site entered index update due own outer,
        agent.shifts = ⟨site, entered, .inside index (.apply update) due own⟩ :: outer →
          agent.scopes.current = Opening.applyAll own update.diagnostics) ∧
      (∀ id update cause earlier, agency.filed? id = some ⟨.apply update, some cause⟩ →
        agency.item? cause.item = some (.apply earlier) →
          update.diagnostics = Opening.applyAll cause.own earlier.diagnostics) ∧
      (∀ first last, agency.Stems first last → ∃ external update,
        agency.item? first = some (.apply external) ∧ agency.item? last = some (.apply update) ∧
          update.diagnostics = external.diagnostics) ∧
      ∀ returned ∈ agency.returns, returned.after = returned.before := by
  intro agency
  have faithful : agency.Faithful := (faithful_new sites agents).run events
  have carries (id : ItemId) (update : Update) (cause : Cause) (earlier : Update)
      (filed : agency.filed? id = some ⟨.apply update, some cause⟩)
      (caused : agency.item? cause.item = some (.apply earlier)) :
      update.diagnostics = Opening.applyAll cause.own earlier.diagnostics := by
    obtain ⟨item, there, same⟩ := faithful.filed id.site _ (List.mem_of_getElem? filed) cause rfl
    exact same earlier update (Option.some.inj (there.symm.trans caused)) rfl
  refine ⟨faithful.calls, fun agent member site entered index update due own outer inside => ?_,
    carries, fun first last stems => ?_, faithful.returns⟩
  · have layered := faithful.agents agent member
    rw [inside] at layered
    rw [layered.1]
    exact Opening.current_enterAll own _
  · induction stems with
    | outside filed => exact ⟨_, _, congrArg _ filed, congrArg _ filed, rfl⟩
    | submitted filed _ ih =>
        obtain ⟨external, earlier, there, caused, same⟩ := ih
        exact ⟨external, _, there, congrArg _ filed,
          (carries _ _ _ earlier filed caused).trans same⟩

end Agency

namespace Sample

/-- A site with a hook that looks at all of its tree. -/
def watched : Site Unit :=
  { Site.new "watched" a schema with
    hooks := ⟨[⟨"hook", 0, 0, ⟨.root, [], .struct "Root"⟩, ()⟩], 1⟩ }

/-- A title is submitted under a request. The hook submits another one, under a step of its own, and
when it is called for that one, a third, under no scope of its own. -/
def relayed : List (Nat × AgentAction Unit) :=
  let title (text : String) : Operation := .replacement (.ofNames ["title"]) (.str text)
  [(0, .start 0 tree), (0, .enter (.attribute "request" "r1")), (0, .submit 0 (title "first")),
    (0, .proceed), (0, .proceed), (0, .proceed), (0, .enter (.context ⟨[("step", "two")]⟩)),
    (0, .submit 0 (title "second")), (0, .leave), (0, .proceed), (0, .proceed), (0, .proceed),
    (0, .proceed), (0, .submit 0 (title "third"))]

/-- The third update carries the step of the second one, and not the request of the first. -/
theorem relayed_not_external :
    ¬ ∀ first last external update cause,
      let agency := (Agency.new (fun _ => watched) 1).run relayed
      agency.Descends first last → agency.item? first = some (.apply external) →
        agency.filed? last = some ⟨.apply update, some ⟨cause, []⟩⟩ →
          update.diagnostics = external.diagnostics := by
  intro same
  have contexts := same ⟨0, 0⟩ ⟨0, 2⟩ _ _ ⟨0, 1⟩
    (.submitted rfl (.submitted rfl (.outside rfl))) rfl rfl
  exact absurd contexts (by decide)

end Sample

end StateTree
