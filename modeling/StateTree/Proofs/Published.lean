/-
Module: StateTree.Proofs.Published
Purpose: The roots that a site publishes over a run. Work may be added and hooks registered at any
  time and items processed in any order; whatever the run, the published roots are all valid exactly
  when every update that took effect was admissible.
-/
import StateTree.Proofs.Validity
import StateTree.Site.Basic
import StateTree.Schema.Build

namespace StateTree

/-- One step of a site. Items are processed whether or not they were taken from the queue. -/
inductive SiteEvent (κ : Type) where
  | enqueue (item : WorkItem κ)
  | register (name : String) (scope : Accessor) (priority : Int) (payload : κ)
  | take
  | finish
  | process (item : WorkItem κ)

namespace Site

variable {κ : Type}

/-- The site after a step. -/
def after (site : Site κ) : SiteEvent κ → Site κ
  | .enqueue item => (site.enqueue item).2
  | .register name scope priority payload => (site.register name scope priority payload).2
  | .take => site.take.2
  | .finish => site.finish.2
  | .process item => (site.process item).1

/-- The updates that take effect in a step. -/
def commits (site : Site κ) : SiteEvent κ → List Update
  | .process (.apply update) =>
      match update.operation.apply site.schema site.root with
      | .ok (some _) => [update]
      | _ => []
  | _ => []

/-- The roots that are published over a run: the first one, and the one after each step. -/
def published (site : Site κ) : List (SiteEvent κ) → List Node
  | [] => [site.root]
  | event :: rest => site.root :: (site.after event).published rest

/-- The updates that take effect over a run. -/
def committed (site : Site κ) : List (SiteEvent κ) → List Update
  | [] => []
  | event :: rest => site.commits event ++ (site.after event).committed rest

/-! ### One step -/

/-- A step other than an update that takes effect leaves the root, and no step changes the
schema. -/
theorem after_cases (site : Site κ) (event : SiteEvent κ) :
    (site.after event).schema = site.schema ∧
      (site.commits event = [] ∧ (site.after event).root = site.root ∨
        ∃ update, site.commits event = [update] ∧
          update.operation.apply site.schema site.root = .ok (some (site.after event).root)) := by
  cases event with
  | enqueue item => exact ⟨rfl, Or.inl ⟨rfl, rfl⟩⟩
  | register name scope priority payload => exact ⟨rfl, Or.inl ⟨rfl, rfl⟩⟩
  | take => exact ⟨rfl, Or.inl ⟨rfl, rfl⟩⟩
  | finish => exact ⟨rfl, Or.inl ⟨rfl, rfl⟩⟩
  | process item =>
      cases item with
      | introduce hook => exact ⟨rfl, Or.inl ⟨rfl, rfl⟩⟩
      | apply update =>
          rcases applied : update.operation.apply site.schema site.root with error | _ | root
          · simp [after, process, commit, commits, applied]
          · simp [after, process, commit, commits, applied]
          · simp [after, process, commit, commits, applied]

/-- From a valid root a step leads to a valid one exactly when what takes effect is admissible. -/
theorem valid_after_iff {site : Site κ} (valid : site.schema.Valid site.root)
    (event : SiteEvent κ) :
    site.schema.Valid (site.after event).root ↔
      ∀ update ∈ site.commits event, update.operation.Admissible site.schema := by
  rcases (site.after_cases event).2 with ⟨none, same⟩ | ⟨update, only, applied⟩
  · simp [none, same, valid]
  · simp [only, Operation.valid_apply_iff valid applied]

/-! ### Whole runs -/

theorem root_mem_published (site : Site κ) (events : List (SiteEvent κ)) :
    site.root ∈ site.published events := by
  cases events <;> simp [published]

/-- From a valid root, what a run publishes is valid exactly when all that takes effect is
admissible. By induction on the run. -/
theorem valid_published_iff (site : Site κ) (valid : site.schema.Valid site.root)
    (events : List (SiteEvent κ)) :
    (∀ root ∈ site.published events, site.schema.Valid root) ↔
      ∀ update ∈ site.committed events, update.operation.Admissible site.schema := by
  induction events generalizing site with
  | nil => simp [published, committed, valid]
  | cons event rest ih =>
      have same := (site.after_cases event).1
      simp only [published, committed, List.forall_mem_cons, List.forall_mem_append, valid,
        true_and, ← valid_after_iff valid event]
      constructor
      · intro later
        have next := later _ (root_mem_published _ rest)
        refine ⟨next, ?_⟩
        rw [← same] at next later ⊢
        exact (ih _ next).mp later
      · rintro ⟨next, admissible⟩
        rw [← same] at next admissible ⊢
        exact (ih _ next).mpr admissible

/-- What takes effect in a run was applied, with an effect, to some root. -/
theorem applied_of_committed {site : Site κ} {events : List (SiteEvent κ)} {update : Update}
    (member : update ∈ site.committed events) :
    ∃ before root, update.operation.apply site.schema before = .ok (some root) := by
  induction events generalizing site with
  | nil => cases member
  | cons event rest ih =>
      obtain ⟨same, effect⟩ := site.after_cases event
      rcases List.mem_append.mp member with now | later
      · rcases effect with ⟨none, -⟩ | ⟨only, committed, applied⟩
        · simp [none] at now
        · rw [committed, List.mem_singleton] at now
          subst now
          exact ⟨_, _, applied⟩
      · rw [← same]
        exact ih later

/-- A site that starts with a valid root publishes valid roots, whatever is added, registered and
processed in whatever order, exactly when every update that takes effect is admissible. Where no
struct type declares a field twice, that is when none of them gives an entity that stays another
identifier than its key. -/
theorem published_valid_iff (site : Site κ) {root : Node} (valid : site.schema.Valid root)
    (events : List (SiteEvent κ)) :
    ((∀ published ∈ (site.start root).2.published events, site.schema.Valid published) ↔
        ∀ update ∈ (site.start root).2.committed events,
          update.operation.Admissible site.schema) ∧
      (site.schema.DistinctFields →
        ((∀ published ∈ (site.start root).2.published events, site.schema.Valid published) ↔
          ∀ update ∈ (site.start root).2.committed events,
            ¬ update.operation.RekeysEntity site.schema)) := by
  have started := valid_published_iff (site.start root).2 valid events
  refine ⟨started, fun distinct => started.trans ?_⟩
  refine forall₂_congr fun update member => ?_
  obtain ⟨before, after, applied⟩ := applied_of_committed member
  exact Operation.admissible_iff distinct applied

end Site

/-! ### In the sample -/

namespace Sample

def site : Site Unit := .new "sample" a schema

/-- An update without any diagnostics. -/
def plain (operation : Operation) : Update := ⟨operation, default⟩

theorem distinctFields : schema.DistinctFields := by
  decide +kernel

/-- The title is replaced. -/
def retitle : Update := plain (.replacement (.ofNames ["title"]) (.str "other"))

/-- The target `a` gets the identifier of another in its field `id`. -/
def rekey : Update := plain (.replacement (.ofNames ["targets", "a", "id"]) (.id b))

theorem title_keeps (value : Node) :
    ¬ (Operation.replacement (.ofNames ["title"]) value).RekeysEntity schema := by
  rintro ⟨accessor, resolved, front, id, deletable, steps, -⟩
  have found : schema.resolve (.ofNames ["title"]) =
      .ok ⟨.ofNames ["title"], [.field "title" false], .str⟩ := rfl
  cases found.symm.trans resolved
  cases front <;> simp at steps

/-- Over a run that replaces the title of the sample, every published root is valid. -/
theorem retitled_published_valid :
    schema.Valid tree ∧
      ∀ published ∈ (site.start tree).2.published [.enqueue (.apply retitle), .take,
        .process (.apply retitle), .finish], schema.Valid published := by
  refine ⟨valid, (((site.published_valid_iff valid _).2 distinctFields).mpr ?_)⟩
  intro update member
  have only : update ∈ [retitle] := member
  rw [List.mem_singleton.mp only]
  exact title_keeps _

/-- An entity of the sample gets another identifier than its key, and the root that is published
then is not valid. -/
theorem rekeyed_published_invalid :
    (((SchemaBuilder.new "Root").define root).define target).build.toOption = some schema ∧
      schema.Valid tree ∧
      ¬ ∀ published ∈ (site.start tree).2.published [.enqueue (.apply rekey), .take,
        .process (.apply rekey)], schema.Valid published :=
  ⟨by decide +kernel, valid, by decide +kernel⟩

end Sample

end StateTree
