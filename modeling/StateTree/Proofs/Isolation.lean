/-
Module: StateTree.Proofs.Isolation
Purpose: The read contexts of a thread. Contexts of any number of sites are opened and left, each
  inside the other, while the sites commit updates. What is read of a site in between depends only
  on the contexts of that site that are open, and never on what has been committed since they were
  opened; and whoever leaves a context finds every site pinned as it was before.
-/
import Mathlib.Logic.Function.Basic
import StateTree.Proofs.Containers
import StateTree.Site.Basic
import StateTree.Site.Reference

namespace StateTree

/-! ### Snapshots pinned to a thread -/

namespace Bindings

variable (bindings : Bindings)

@[simp] theorem root?_none (site : Nat) : none.root? site = .none := rfl

/-- A root that is pinned to a site is found there. -/
@[simp] theorem root?_bind_self (site : Nat) (root : Node) :
    (bindings.bind site root).root? site = some root :=
  Keyed.lookup_put_self site root bindings.roots

theorem root?_bind_of_ne {site other : Nat} (different : other ≠ site) (root : Node) :
    (bindings.bind site root).root? other = bindings.root? other :=
  Keyed.lookup_put_of_ne different root bindings.roots

@[simp] theorem root?_unbind_self (site : Nat) : (bindings.unbind site).root? site = .none :=
  Keyed.lookup_drop_self site bindings.roots

theorem root?_unbind_of_ne {site other : Nat} (different : other ≠ site) :
    (bindings.unbind site).root? other = bindings.root? other :=
  Keyed.lookup_drop_of_ne different bindings.roots

/-- Inside another context of its site a context is opened on the snapshot there is. -/
theorem enter_of_some {site : Nat} {root : Node} (pinned : bindings.root? site = some root)
    (current : Node) : bindings.enter site current = (⟨site, root, .nothing⟩, bindings) := by
  rw [enter, pinned]

/-- Who enters where nothing is pinned pins the current root. -/
theorem enter_of_none {site : Nat} (free : bindings.root? site = .none) (current : Node) :
    bindings.enter site current = (⟨site, current, .unbind⟩, bindings.bind site current) := by
  rw [enter, free]

end Bindings

/-! ### A thread that reads -/

/-- A context that is open. -/
structure OpenContext where
  context : ReadContext
  /-- Whether the context is on a snapshot of its own, whatever was pinned before. -/
  isReplacing : Bool
  /-- That snapshot; or else the root that the site had when the context was opened. -/
  given : Node

/-- What happens on a thread that reads, and at the sites that it reads. -/
inductive ReadingEvent where
  | enter (site : Nat)
  | replace (site : Nat) (root : Node)
  /-- Leave the innermost context. -/
  | leave
  /-- Someone has an update applied. -/
  | commit (site : Nat) (update : Update)

/-- A thread that reads, and the sites there are. -/
structure ReadingThread (κ : Type) where
  sites : Nat → Site κ
  bindings : Bindings
  /-- The open contexts, innermost first. -/
  contexts : List OpenContext

/-- Whether a context is opened. -/
def ReadingEvent.opens : ReadingEvent → Bool
  | .enter _ | .replace _ _ => true
  | _ => false

/-- Whether a context is left. -/
def ReadingEvent.leaves : ReadingEvent → Bool
  | .leave => true
  | _ => false

/-- In these events every context that is opened is left, and no other. -/
inductive Nested : List ReadingEvent → Prop
  | done : Nested []
  | pass {event : ReadingEvent} {rest : List ReadingEvent} (stays : event.opens = false)
      (inside : event.leaves = false) (following : Nested rest) : Nested (event :: rest)
  | context {opening : ReadingEvent} {inner rest : List ReadingEvent} (opens : opening.opens = true)
      (within : Nested inner) (following : Nested rest) :
      Nested (opening :: (inner ++ .leave :: rest))

/-- The snapshot that contexts of one site, innermost first, have pinned: that of the innermost on a
snapshot of its own, or else that of the outermost. -/
def OpenContext.pinned? (contexts : List OpenContext) : Option Node :=
  match contexts.find? OpenContext.isReplacing with
  | some replacing => some replacing.given
  | none => contexts.getLast?.map OpenContext.given

/-- The contexts of a site among others. -/
def OpenContext.own (contexts : List OpenContext) (site : Nat) : List OpenContext :=
  contexts.filter fun opened => opened.context.site == site

namespace ReadingThread

variable {κ : Type}

/-- A thread on which no context is open. -/
def new (sites : Nat → Site κ) : ReadingThread κ := ⟨sites, .none, []⟩

/-- What happens next. -/
def after (reader : ReadingThread κ) : ReadingEvent → ReadingThread κ
  | .enter site =>
      let current := (reader.sites site).root
      let (context, bindings) := reader.bindings.enter site current
      { reader with
        bindings := bindings, contexts := ⟨context, false, current⟩ :: reader.contexts }
  | .replace site root =>
      let (context, bindings) := reader.bindings.replace site root
      { reader with bindings := bindings, contexts := ⟨context, true, root⟩ :: reader.contexts }
  | .leave =>
      match reader.contexts with
      | [] => reader
      | opened :: rest =>
          { reader with bindings := reader.bindings.leave opened.context, contexts := rest }
  | .commit site update =>
      { reader with
        sites := Function.update reader.sites site ((reader.sites site).commit update).1 }

/-- What has happened after some events. -/
def run (reader : ReadingThread κ) (events : List ReadingEvent) : ReadingThread κ :=
  events.foldl after reader

/-- The contexts of a site that are open, innermost first. -/
def contextsOf (reader : ReadingThread κ) (site : Nat) : List OpenContext :=
  OpenContext.own reader.contexts site

/-- The snapshot that the open contexts of a site have pinned. -/
def pinned? (reader : ReadingThread κ) (site : Nat) : Option Node :=
  OpenContext.pinned? (reader.contextsOf site)

end ReadingThread

/-! ### What open contexts pin -/

namespace OpenContext

variable {opened : OpenContext} {contexts : List OpenContext}

theorem pinned?_eq_none_iff : pinned? contexts = none ↔ contexts = [] := by
  constructor
  · intro free
    unfold pinned? at free
    split at free
    · cases free
    · simpa using free
  · rintro rfl
    rfl

/-- A context on a snapshot of its own pins that. -/
theorem pinned?_cons_of_replacing (replacing : opened.isReplacing = true) :
    pinned? (opened :: contexts) = some opened.given := by
  rw [pinned?, List.find?_cons_of_pos replacing]

/-- Any other one pins what was pinned before, or else what it was opened with. -/
theorem pinned?_cons_of_entered (entered : opened.isReplacing = false) :
    pinned? (opened :: contexts) = (pinned? contexts).or (some opened.given) := by
  unfold pinned?
  rw [List.find?_cons_of_neg (by simp [entered])]
  cases contexts.find? isReplacing with
  | some replacing => rfl
  | none =>
      cases contexts with
      | nil => rfl
      | cons first rest => simp [List.getLast?_cons]

/-- A context counts among those of its own site. -/
theorem own_cons_self : own (opened :: contexts) opened.context.site =
    opened :: own contexts opened.context.site := by
  simp [own]

theorem own_cons_of_ne {site : Nat} (different : site ≠ opened.context.site) :
    own (opened :: contexts) site = own contexts site := by
  simp [own, Ne.symm different]

end OpenContext

namespace ReadingThread

open OpenContext (own pinned?_cons_of_replacing pinned?_cons_of_entered)

variable {κ : Type} {reader : ReadingThread κ}

/-! ### Every step keeps the contexts in their order -/

/-- Each context puts back what the contexts around it have pinned. -/
def Stacked : List OpenContext → Prop
  | [] => True
  | opened :: outer =>
      Stacked outer ∧ opened.context.restore =
        match OpenContext.pinned? (own outer opened.context.site), opened.isReplacing with
        | none, _ => .unbind
        | some _, false => .nothing
        | some root, true => .rebind root

/-- What is pinned to the thread is what its open contexts have pinned, and they are going to put
that back. -/
structure Faithful (reader : ReadingThread κ) : Prop where
  pinned : ∀ site, reader.bindings.root? site = reader.pinned? site
  stacked : Stacked reader.contexts

theorem faithful_new (sites : Nat → Site κ) : (new sites).Faithful := ⟨fun _ => rfl, trivial⟩

/-- The bindings after a context was opened pin what the contexts do. -/
theorem pinned_opened (pinned : ∀ site, reader.bindings.root? site = reader.pinned? site)
    {opened : OpenContext} {bindings : Bindings}
    (self : bindings.root? opened.context.site =
      OpenContext.pinned? (opened :: own reader.contexts opened.context.site))
    (others : ∀ site, site ≠ opened.context.site →
      bindings.root? site = reader.bindings.root? site) (site : Nat) :
    bindings.root? site = OpenContext.pinned? (own (opened :: reader.contexts) site) := by
  by_cases same : site = opened.context.site
  · subst same
    rw [OpenContext.own_cons_self]
    exact self
  · rw [OpenContext.own_cons_of_ne same, others site same]
    exact pinned site

namespace Faithful

variable (faithful : reader.Faithful)

include faithful

theorem enter (site : Nat) : (reader.after (.enter site)).Faithful := by
  have before := faithful.pinned site
  rw [ReadingThread.pinned?, contextsOf] at before
  cases free : reader.bindings.root? site with
  | some root =>
      have entered := reader.bindings.enter_of_some free (reader.sites site).root
      simp only [after, entered]
      refine ⟨pinned_opened faithful.pinned ?_ fun _ _ => rfl, faithful.stacked, ?_⟩
      · rw [pinned?_cons_of_entered rfl, ← before, free]
        rfl
      · rw [← before, free]
  | none =>
      have entered := reader.bindings.enter_of_none free (reader.sites site).root
      simp only [after, entered]
      refine ⟨pinned_opened faithful.pinned ?_ fun other different => ?_, faithful.stacked, ?_⟩
      · rw [pinned?_cons_of_entered rfl, ← before, free]
        exact reader.bindings.root?_bind_self site _
      · exact reader.bindings.root?_bind_of_ne different _
      · rw [← before, free]

theorem replace (site : Nat) (root : Node) : (reader.after (.replace site root)).Faithful := by
  have before := faithful.pinned site
  rw [ReadingThread.pinned?, contextsOf] at before
  refine ⟨pinned_opened faithful.pinned ?_ fun other different => ?_, faithful.stacked, ?_⟩
  · rw [pinned?_cons_of_replacing rfl]
    exact reader.bindings.root?_bind_self site root
  · exact reader.bindings.root?_bind_of_ne different root
  · dsimp only [Bindings.replace]
    rw [← before]
    cases reader.bindings.root? site <;> rfl

/-- Leaving the innermost context pins what the others do. -/
theorem leave : (reader.after .leave).Faithful := by
  obtain ⟨sites, bindings, contexts⟩ := reader
  cases contexts with
  | nil => exact faithful
  | cons opened outer =>
      obtain ⟨pinned, stacked, restores⟩ := faithful
      refine ⟨fun site => ?_, stacked⟩
      have before := pinned site
      simp only [ReadingThread.pinned?, contextsOf, after, Bindings.leave] at before restores ⊢
      by_cases same : site = opened.context.site
      · subst same
        rw [OpenContext.own_cons_self] at before
        cases outside : OpenContext.pinned? (own outer opened.context.site) with
        | none =>
            rw [restores, outside]
            exact bindings.root?_unbind_self _
        | some root =>
            rw [restores, outside]
            cases sort : opened.isReplacing with
            | false =>
                rw [pinned?_cons_of_entered sort, outside] at before
                exact before
            | true => exact bindings.root?_bind_self _ root
      · rw [OpenContext.own_cons_of_ne same] at before
        rw [← before]
        split
        · rfl
        · exact bindings.root?_unbind_of_ne same
        · exact bindings.root?_bind_of_ne same _

/-- Every step keeps the contexts in their order, one lemma for each kind of step. -/
theorem after (event : ReadingEvent) : (reader.after event).Faithful := by
  cases event with
  | enter site => exact faithful.enter site
  | replace site root => exact faithful.replace site root
  | leave => exact faithful.leave
  | commit site update => exact ⟨faithful.pinned, faithful.stacked⟩

/-- A whole run keeps what is pinned faithful, by induction on its events. -/
theorem run (events : List ReadingEvent) : (reader.run events).Faithful := by
  induction events generalizing reader with
  | nil => exact faithful
  | cons event rest ih => exact ih (faithful.after event)

/-- What a reference is read in is the snapshot that the open contexts of its site have pinned. -/
theorem value_eq (reference : Reference) :
    reference.value reader.bindings =
      match reader.pinned? reference.site with
      | some root => reference.valueAt root
      | none => .error (.outsideContext reference.path) := by
  have read := faithful.pinned reference.site
  cases pinned : reader.pinned? reference.site with
  | some root => rw [Reference.value, read, pinned]
  | none => rw [Reference.value, read, pinned]

end Faithful

/-! ### Leaving contexts -/

theorem run_cons (reader : ReadingThread κ) (event : ReadingEvent) (rest : List ReadingEvent) :
    reader.run (event :: rest) = (reader.after event).run rest := rfl

theorem run_append (reader : ReadingThread κ) (events more : List ReadingEvent) :
    reader.run (events ++ more) = (reader.run events).run more := List.foldl_append

/-- What is opened is the innermost context. -/
theorem contexts_of_opens (reader : ReadingThread κ) {opening : ReadingEvent}
    (opens : opening.opens = true) :
    ∃ opened, (reader.after opening).contexts = opened :: reader.contexts := by
  cases opening with
  | enter site => exact ⟨_, rfl⟩
  | replace site root => exact ⟨_, rfl⟩
  | leave => cases opens
  | commit site update => cases opens

/-- The innermost context is the one that is left. -/
theorem contexts_of_leave {opened : OpenContext} {outer : List OpenContext}
    (inside : reader.contexts = opened :: outer) : (reader.after .leave).contexts = outer := by
  simp only [after, inside]

/-- Events in which contexts are nested leave open what was open. -/
theorem contexts_of_nested {events : List ReadingEvent} (nested : Nested events) :
    (reader.run events).contexts = reader.contexts := by
  induction nested generalizing reader with
  | done => rfl
  | @pass event rest stays inside _ ih =>
      have same : (reader.after event).contexts = reader.contexts := by
        cases event with
        | enter site => cases stays
        | replace site root => cases stays
        | leave => cases inside
        | commit site update => rfl
      rw [run_cons, ih, same]
  | context opens _ _ within following =>
      obtain ⟨opened, innermost⟩ := contexts_of_opens reader opens
      rw [run_cons, run_append, run_cons, following]
      exact contexts_of_leave (within.trans innermost)

/-- Contexts isolate and restore. Let contexts of any sites be opened and left on a thread, and
updates be committed to any sites, in any order. Then a reference is read in the snapshot of the
innermost open context of its site that has one of its own, or else in the one that the outermost
has found when it was entered; where no context of the site is open it is not read at all. A context
that is entered inside another one of its site is on the snapshot that is pinned already. And after
a context and those in it were opened and left, every site is pinned as it was before. -/
theorem contexts_isolate (sites : Nat → Site κ) (events : List ReadingEvent) :
    let reader := (new sites).run events
    (∀ reference : Reference, reference.value reader.bindings =
        match reader.pinned? reference.site with
        | some root => reference.valueAt root
        | none => .error (.outsideContext reference.path)) ∧
      (∀ site, reader.pinned? site = none ↔
        ∀ opened ∈ reader.contexts, opened.context.site ≠ site) ∧
      (∀ site root, reader.pinned? site = some root →
        (reader.after (.enter site)).bindings = reader.bindings ∧
          ∃ opened, (reader.after (.enter site)).contexts = opened :: reader.contexts ∧
            opened.context.root = root) ∧
      ∀ opening inner, opening.opens = true → Nested inner → ∀ site,
        (reader.run (opening :: (inner ++ [.leave]))).bindings.root? site =
          reader.bindings.root? site := by
  intro reader
  have faithful : reader.Faithful := (faithful_new sites).run events
  refine ⟨faithful.value_eq, fun site => ?_, fun site root pinned => ?_, ?_⟩
  · simp [ReadingThread.pinned?, OpenContext.pinned?_eq_none_iff, contextsOf, own]
  · have entered := reader.bindings.enter_of_some ((faithful.pinned site).trans pinned)
      (reader.sites site).root
    simp only [after, entered]
    exact ⟨trivial, _, rfl, rfl⟩
  · intro opening inner opens nested site
    have left : (reader.run (opening :: (inner ++ [.leave]))).contexts = reader.contexts :=
      contexts_of_nested (.context opens nested .done)
    rw [(faithful.run _).pinned, faithful.pinned, ReadingThread.pinned?, ReadingThread.pinned?,
      contextsOf, contextsOf, left]

end ReadingThread

end StateTree
