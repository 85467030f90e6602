/-
Module: StateTree.Proofs.Lineage
Purpose: Where the snapshots of a log come from: the first one from the replica that joined first,
  and, while all replicas prefer one format, each other one from the one before it.
-/
import StateTree.Proofs.Writers

namespace StateTree

/-- What replacing the snapshot stores is the new one. -/
theorem LogCall.eq_of_stored {expected : Option Nat} {document stored : StateDocument}
    {result : Except LogError Unit}
    (member : stored ∈ (LogCall.replaceState expected document).stored result) :
    stored = document := by
  cases result with
  | ok value => exact List.mem_singleton.mp member
  | error error => cases member

/-! ### The first snapshot -/

namespace Ledger

/-- The first snapshot has a property. Where replicas are prompt, nothing is appended before it. -/
structure Begun (prompt : Prop) (property : StateDocument → Prop) (ledger : Ledger) : Prop where
  tidy : ledger.Tidy
  first : ∀ first, ledger.documents.head? = some first → property first
  before : prompt → ledger.documents = [] → ledger.appended = []

variable {prompt : Prop} {property : StateDocument → Prop} {ledger : Ledger}

theorem begun_empty : empty.Begun prompt property where
  tidy := tidy_empty
  first := fun _ none => by cases none
  before := fun _ _ => rfl

/-- A call that stores the first snapshot stores one of the property. -/
theorem Begun.answer (begun : ledger.Begun prompt property) {α : Type} {call : LogCall α}
    (stored : ledger.documents = [] → ∀ document ∈ call.stored (ledger.answer call).1,
      property document)
    (appended : prompt → ledger.documents = [] → call.appended (ledger.answer call).1 = []) :
    (ledger.answer call).2.Begun prompt property := by
  have documents : (ledger.answer call).2.documents =
      ledger.documents ++ call.stored (ledger.answer call).1 := rfl
  have records : (ledger.answer call).2.appended =
      ledger.appended ++ call.appended (ledger.answer call).1 := rfl
  refine ⟨begun.tidy.answer call, ?_, ?_⟩
  · intro first head
    by_cases joined : ledger.documents = []
    · rw [documents, joined, List.nil_append] at head
      exact stored joined first (List.mem_of_head? head)
    · obtain ⟨oldest, rest, same⟩ := List.exists_cons_of_ne_nil joined
      apply begun.first
      rw [documents, same] at head
      rw [same]
      exact head
  · intro prompt none
    rw [documents, List.append_eq_nil_iff] at none
    rw [records, begun.before prompt none.1, appended prompt none.1]
    rfl

/-- Once a snapshot is stored, any call will do. -/
theorem Begun.answer_of_stored (begun : ledger.Begun prompt property)
    (joined : ledger.documents ≠ []) {α : Type} (call : LogCall α) :
    (ledger.answer call).2.Begun prompt property :=
  begun.answer (fun none => absurd none joined) fun _ none => absurd none joined

theorem Begun.answer_quiet (begun : ledger.Begun prompt property) {α : Type} {call : LogCall α}
    (quiet : Quiet call) : (ledger.answer call).2.Begun prompt property := by
  apply begun.answer
  · intro _ document member
    cases call <;> first | exact absurd quiet id | cases member
  · intro _ _
    cases call <;> first | exact absurd quiet id | rfl

/-- A snapshot is stored from here on. -/
def Joined (ledger : Ledger) : Prop := ledger.documents ≠ []

theorem stable_joined : LogProgram.Stable Joined := by
  intro before after grows joined none
  obtain ⟨more, documents⟩ := grows.documents
  rw [none, List.append_eq_nil_iff] at documents
  exact joined documents.1

theorem Tidy.joined (tidy : ledger.Tidy) (stored : ledger.log.state.isSome = true) :
    ledger.Joined := by
  intro none
  rw [tidy.latest, none] at stored
  cases stored

end Ledger

namespace ReplicaSettings

open LogProgram

variable (settings : ReplicaSettings) {schema : Schema} {ledger : Ledger}

section Begun

variable {prompt : Prop} {property : StateDocument → Prop}

/-- Once a snapshot is stored, a call keeps what is so of the first one. -/
theorem begun_call (joined : ledger.Joined) {α : Type} (call : LogCall α) :
    Call (Ledger.Begun prompt property) (fun _ _ => True) call ledger := by
  intro later grows begun
  have stored := Ledger.stable_joined _ _ grows joined
  exact ⟨begun.answer_of_stored stored call, trivial, fun error transient => trivial⟩

theorem begun_state :
    Call (Ledger.Begun prompt property) (Returns fun state later =>
      state.isSome = true → later.Joined) .state ledger := by
  intro later grows begun
  refine ⟨begun.answer_quiet trivial, ?_, fun error _ => returns_error _ _ _⟩
  intro state same stored
  have found : later.log.state = state := Except.ok.inj same
  have joined : later.Joined := begun.tidy.joined (found ▸ stored)
  exact Ledger.stable_joined _ _ (later.grows_answer _) joined

/-- The replica that joins first stores a snapshot of its own tree, as of the head then. -/
theorem begun_obtain (root : Node)
    (has : ∀ head, (prompt → head = 0) →
      property (.ofNode root settings.preferredFormat 1 head)) :
    (settings.obtain root).Ensures (Ledger.Begun prompt property) (fun _ _ => True) ledger := by
  apply Ensures.bind
  apply (ensures_attempt begun_state).weaken
  intro result later known
  cases result with
  | error error => trivial
  | ok state =>
      cases state with
      | some document => trivial
      | none =>
          apply Ensures.bind
          apply ensures_attempt
          intro now grows begun
          refine ⟨begun.answer_quiet trivial, ?_, fun error transient => trivial⟩
          have head : now.log.head = now.appended.length := begun.tidy.head_eq
          refine Ensures.recover (Ensures.bind (ensures_call ?_))
          intro last further holds
          have growth : now.appended.length ≤ last.appended.length :=
            ((now.grows_answer .head).trans further).appended.length_le
          refine ⟨holds.answer ?_ fun _ _ => rfl, ?_, ?_⟩
          · intro none document member
            rw [LogCall.eq_of_stored member]
            refine has _ fun prompt => ?_
            have nothing := holds.before prompt none
            simp only [nothing, List.length_nil] at growth
            omega
          · by_cases empty : last.log.state.map StateDocument.revision = none
            · rw [Ledger.answer_replaceState_of_eq empty]
              trivial
            · rw [Ledger.answer_replaceState_of_ne empty]
              exact (ensures_call begun_state).weaken fun _ _ _ => trivial
          · intro error transient
            rcases LogError.transient_cases transient with rfl | ⟨reason, rfl⟩
            · trivial
            · trivial

/-- Before a program that needs the stored snapshot goes on, there is one. -/
theorem begun_requireState (absence : String) :
    (settings.requireState absence).Ensures (Ledger.Begun prompt property)
      (Returns fun _ later => later.Joined) ledger := by
  apply Ensures.bind
  apply (ensures_attempt begun_state).weaken
  intro result later known
  cases result with
  | error error => exact returns_error _ error later
  | ok state =>
      cases state with
      | none => exact returns_error _ _ later
      | some document =>
          intro value same
          exact known _ rfl rfl

theorem begun_replay (upTo : Nat) :
    (settings.replay schema upTo).Ensures (Ledger.Begun prompt property)
      (Returns fun _ later => later.Joined) ledger := by
  apply Ensures.bind
  apply (begun_requireState settings _).weaken
  intro result later known
  cases result with
  | error error => exact returns_error _ error later
  | ok document =>
      have joined : later.Joined := known document rfl
      apply Ensures.bind
      rw [load_eq]
      cases document.tree? schema with
      | none => exact returns_error _ _ later
      | some root =>
          have reads : (settings.attempt (.readFrom document.position)).Ensures
              (Ledger.Begun prompt property) (fun _ _ => True) later :=
            ensures_attempt (begun_call joined _)
          apply Ensures.bind
          apply (reads.keep Ledger.stable_joined joined).weaken
          rintro result now ⟨-, joined⟩
          cases result with
          | error error => exact returns_error _ error now
          | ok records => exact fun replayed same => joined

theorem begun_compact (position : Nat) :
    (settings.compact schema position).Ensures (Ledger.Begun prompt property) (fun _ _ => True)
      ledger := by
  apply Ensures.bind
  apply (begun_replay settings position).weaken
  intro result later known
  cases result with
  | error error => trivial
  | ok replayed =>
      have joined : later.Joined := known replayed rfl
      by_cases covered : position ≤ replayed.position
      · simp only [covered, if_true]
        trivial
      · simp only [covered, if_false]
        have replaces : (LogProgram.call (.replaceState (some replayed.revision)
            (.ofNode replayed.root settings.manifest.format (replayed.revision + 1) position))).Ensures
              (Ledger.Begun prompt property) (fun _ _ => True) later :=
          ensures_call (begun_call joined _)
        apply Ensures.bind
        apply (replaces.keep Ledger.stable_joined joined).weaken
        rintro result now ⟨-, joined⟩
        cases result with
        | error error => trivial
        | ok done => exact ensures_call (begun_call joined _)

/-- Without a snapshot to convert, nothing is stored. -/
theorem begun_switchManifest {stored : Manifest} {document : Option StateDocument}
    (joined : document.isSome = true → ledger.Joined) :
    (settings.switchManifest stored document).Ensures (Ledger.Begun prompt property)
      (fun _ _ => True) ledger := by
  apply Ensures.recover
  apply ensures_call
  intro later grows begun
  refine ⟨?_, ?_, ?_⟩
  · cases document with
    | none => exact begun.answer (fun _ _ member => by cases member) fun _ _ => rfl
    | some converted =>
        exact begun.answer_of_stored (Ledger.stable_joined _ _ grows (joined rfl)) _
  · by_cases same : later.log.manifest = some stored
    · rw [Ledger.answer_upgrade_of_eq same]
      trivial
    · rw [Ledger.answer_upgrade_of_ne same]
      intro now further holds
      refine ⟨holds.answer_quiet trivial, ?_, fun error transient => trivial⟩
      cases found : now.log.manifest with
      | none => simp [Ledger.answer, MemoryLog.answer, found, LogProgram.fail, Ensures]
      | some manifest =>
          simp only [Ledger.answer, MemoryLog.answer, found]
          split <;> trivial
  · intro error transient
    rcases LogError.transient_cases transient with rfl | ⟨reason, rfl⟩
    · trivial
    · trivial

theorem begun_negotiate :
    settings.negotiate.Ensures (Ledger.Begun prompt property) (fun _ _ => True) ledger := by
  apply Ensures.bind
  apply ensures_attempt
  intro later grows begun
  refine ⟨begun.answer_quiet trivial, ?_, fun error transient => trivial⟩
  simp only [Ledger.answer, MemoryLog.answer]
  generalize later.log.manifest.getD settings.manifest = stored
  split
  · trivial
  · split
    · apply Ensures.bind
      apply (ensures_attempt begun_state).weaken
      intro result now known
      cases result with
      | error error => trivial
      | ok state =>
          cases state with
          | none => exact begun_switchManifest settings fun none => by cases none
          | some document =>
              have joined : now.Joined := known _ rfl rfl
              apply Ensures.bind
              cases settings.manifest.upgradeFrom stored document with
              | error error => trivial
              | ok converted => exact begun_switchManifest settings fun _ => joined
    · trivial

/-- Prompt replicas append only once a snapshot is stored. -/
theorem begun_append (joined : prompt → ledger.Joined) (correlation : Uuid) (body : RecordBody) :
    (settings.attempt (.append correlation body)).Ensures (Ledger.Begun prompt property)
      (fun _ _ => True) ledger := by
  apply ensures_attempt
  intro later grows begun
  refine ⟨begun.answer (fun _ _ member => by cases member) ?_, trivial,
    fun error transient => trivial⟩
  intro prompt none
  exact absurd none (Ledger.stable_joined _ _ grows (joined prompt))

end Begun

end ReplicaSettings

/-! ### One format -/

namespace Ledger

/-- Whoever has written the log prefers one format and appends records of one kind, and each
snapshot was made from the one before it. -/
structure Uniform (format : StateFormat) (kind : RecordBody → Prop) (ledger : Ledger) : Prop where
  tidy : ledger.Tidy
  manifest : ∀ manifest, ledger.log.manifest = some manifest → manifest = .new format
  formats : ∀ document ∈ ledger.documents, document.format = format
  inTurn : ledger.InTurn
  bodies : ∀ record ∈ ledger.appended, kind record.body

/-- Calls of a replica that prefers the format. Each names the revision that follows the one it
expects. -/
def Plain {α : Type} (format : StateFormat) (kind : RecordBody → Prop) : LogCall α → Prop
  | .initializeManifest manifest => manifest = .new format
  | .replaceState expected document =>
      document.revision = expected.getD 0 + 1 ∧ document.format = format
  | .upgrade _ _ _ => False
  | .append _ body => kind body
  | _ => True

variable {format : StateFormat} {kind : RecordBody → Prop} {ledger before after : Ledger}

theorem uniform_empty : empty.Uniform format kind where
  tidy := tidy_empty
  manifest := fun manifest none => by cases none
  formats := fun document member => by cases member
  inTurn := rfl
  bodies := fun record member => by cases member

/-- Revisions that count up end with the number of snapshots. -/
theorem Uniform.length_eq (uniform : ledger.Uniform format kind) :
    (ledger.log.state.map StateDocument.revision).getD 0 = ledger.documents.length := by
  have last := congrArg List.getLast? uniform.inTurn
  rw [List.getLast?_map, List.getLast?_range', ← uniform.tidy.latest] at last
  rw [last]
  by_cases none : ledger.documents.length = 0
  · simp [none]
  · simp only [none, if_false, Option.getD_some]
    omega

theorem Uniform.of_same (uniform : before.Uniform format kind) (tidy : after.Tidy)
    (manifest : after.log.manifest = before.log.manifest)
    (documents : after.documents = before.documents)
    (bodies : ∀ record ∈ after.appended, kind record.body) : after.Uniform format kind := by
  refine ⟨tidy, manifest ▸ uniform.manifest, documents ▸ uniform.formats, ?_, bodies⟩
  unfold InTurn
  rw [documents]
  exact uniform.inTurn

/-- A plain call appends what records may carry. -/
theorem Uniform.bodies_answer (uniform : ledger.Uniform format kind) {α : Type}
    {call : LogCall α} (plain : Plain format kind call) :
    ∀ record ∈ (ledger.answer call).2.appended, kind record.body := by
  have split : (ledger.answer call).2.appended =
      ledger.appended ++ call.appended (ledger.answer call).1 := rfl
  generalize (ledger.answer call).1 = result at split
  intro record member
  rw [split] at member
  rcases List.mem_append.mp member with early | new
  · exact uniform.bodies record early
  · unfold LogCall.appended at new
    split at new
    · rw [List.mem_singleton.mp new]
      exact plain
    · cases new

theorem Uniform.answer (uniform : ledger.Uniform format kind) {α : Type} {call : LogCall α}
    (plain : Plain format kind call) : (ledger.answer call).2.Uniform format kind := by
  have tidy := uniform.tidy.answer call
  have bodies := uniform.bodies_answer plain
  cases call with
  | initializeManifest manifest =>
      have documents : (ledger.answer (.initializeManifest manifest)).2.documents =
          ledger.documents := List.append_nil _
      refine ⟨tidy, ?_, ?_, ?_, bodies⟩
      · intro stored found
        have kept : some (ledger.log.manifest.getD manifest) = some stored := found
        cases present : ledger.log.manifest with
        | none =>
            simp only [present, Option.getD_none, Option.some.injEq] at kept
            exact kept ▸ plain
        | some other =>
            simp only [present, Option.getD_some, Option.some.injEq] at kept
            exact kept ▸ uniform.manifest other present
      · rw [documents]
        exact uniform.formats
      · unfold InTurn
        rw [documents]
        exact uniform.inTurn
  | replaceState expected document =>
      by_cases same : ledger.log.state.map StateDocument.revision = expected
      · rw [answer_replaceState_of_eq same] at tidy bodies ⊢
        refine ⟨tidy, uniform.manifest, ?_, ?_, bodies⟩
        · intro stored member
          rcases List.mem_append.mp member with early | new
          · exact uniform.formats stored early
          · rw [List.mem_singleton.mp new]
            exact plain.2
        · have length := uniform.length_eq
          have next : document.revision = 1 + ledger.documents.length := by
            rw [same] at length
            have named := plain.1
            omega
          have counted := uniform.inTurn
          unfold InTurn at counted ⊢
          simp only [List.map_append, List.map_cons, List.map_nil, List.length_append,
            List.length_singleton, List.range'_1_concat, counted, next]
      · rw [answer_replaceState_of_ne same]
        exact uniform
  | upgrade expected manifest document => cases plain
  | readFrom position =>
      rcases Nat.lt_or_ge position ledger.log.first with dropped | kept
      · rw [answer_readFrom_of_lt dropped]
        exact uniform
      · rw [answer_readFrom_of_le kept]
        exact uniform
  | _ => exact uniform.of_same tidy rfl (List.append_nil _) bodies

end Ledger

namespace ReplicaSettings

open LogProgram

variable (settings : ReplicaSettings) {schema : Schema} {ledger : Ledger}

section Uniform

variable {format : StateFormat} {kind : RecordBody → Prop}

/-- A plain call, whatever its answer. -/
theorem uniform_call {α : Type} {call : LogCall α} (plain : Ledger.Plain format kind call) :
    Call (Ledger.Uniform format kind) (fun _ _ => True) call ledger := by
  intro later grows uniform
  exact ⟨uniform.answer plain, trivial, fun error transient => trivial⟩

theorem uniform_loadState :
    settings.loadState.Ensures (Ledger.Uniform format kind) (fun _ _ => True) ledger :=
  ensures_attempt (uniform_call trivial)

theorem uniform_append (correlation : Uuid) {body : RecordBody} (of : kind body) :
    (settings.attempt (.append correlation body)).Ensures (Ledger.Uniform format kind)
      (fun _ _ => True) ledger :=
  ensures_attempt (uniform_call of)

variable {settings} (prefers : settings.preferredFormat = format)

include prefers

theorem uniform_obtain (root : Node) :
    (settings.obtain root).Ensures (Ledger.Uniform format kind) (fun _ _ => True) ledger := by
  refine ensures_then (uniform_loadState settings) fun state later => ?_
  cases state with
  | some document => trivial
  | none =>
      refine ensures_then (ensures_attempt (uniform_call trivial)) fun head later => ?_
      have plain : Ledger.Plain format kind (.replaceState none
          (.ofNode root settings.manifest.format 1 head)) := ⟨rfl, prefers⟩
      apply Ensures.recover
      apply Ensures.bind
      refine (ensures_call (uniform_call plain)).weaken ?_
      intro result last known
      cases result with
      | ok value => trivial
      | error error =>
          cases error with
          | revisionConflict expected actual => exact ensures_call (uniform_call trivial)
          | _ => trivial

theorem uniform_compact (position : Nat) :
    (settings.compact schema position).Ensures (Ledger.Uniform format kind) (fun _ _ => True)
      ledger := by
  have loads (document : StateDocument) (later : Ledger) :
      (document.load schema).Ensures (Ledger.Uniform format kind) (fun _ _ => True) later := by
    rw [load_eq]
    cases document.tree? schema <;> trivial
  refine ensures_then (ensures_then (ensures_then (uniform_loadState settings) ?_) ?_) ?_
  · intro state later
    cases state <;> trivial
  · intro document later
    refine ensures_then (loads document later) fun root last => ?_
    exact ensures_then (ensures_attempt (uniform_call trivial)) fun _ _ => trivial
  · intro replayed later
    by_cases covered : position ≤ replayed.position
    · simp only [covered, if_true]
      trivial
    · simp only [covered, if_false]
      have plain : Ledger.Plain format kind (.replaceState (some replayed.revision)
          (.ofNode replayed.root settings.manifest.format (replayed.revision + 1) position)) :=
        ⟨rfl, prefers⟩
      exact ensures_then (ensures_call (uniform_call plain)) fun _ _ =>
        ensures_call (uniform_call trivial)

/-- A replica that prefers the stored format has nothing to convert. -/
theorem uniform_negotiate :
    settings.negotiate.Ensures (Ledger.Uniform format kind) (fun _ _ => True) ledger := by
  have same : settings.manifest = .new format := congrArg Manifest.new prefers
  apply Ensures.bind
  apply ensures_attempt
  intro later grows uniform
  refine ⟨uniform.answer same, ?_, fun error transient => trivial⟩
  have stored : later.log.manifest.getD settings.manifest = settings.manifest := by
    cases found : later.log.manifest with
    | none => rfl
    | some manifest => exact (uniform.manifest manifest found).trans same.symm
  simp only [Ledger.answer, MemoryLog.answer, stored, if_true]
  trivial

end Uniform

end ReplicaSettings

end StateTree
