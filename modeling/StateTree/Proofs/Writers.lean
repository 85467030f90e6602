/-
Module: StateTree.Proofs.Writers
Purpose: What the programs of a replica do to a log that others call between their calls: agreeing
  on a manifest, joining, appending and compacting keep the ledger consistent.
-/
import StateTree.Proofs.Documents

namespace StateTree

namespace Ledger

variable {schema : Schema} {ledger before after : Ledger}

/-- Calls that neither append nor store nor drop anything. -/
def Quiet {α : Type} : LogCall α → Prop
  | .manifest | .initializeManifest _ | .state | .readFrom _ | .head => True
  | _ => False

theorem answer_quiet {α : Type} {call : LogCall α} (quiet : Quiet call) (ledger : Ledger) :
    (ledger.answer call).2.appended = ledger.appended ∧
      (ledger.answer call).2.documents = ledger.documents ∧
      (ledger.answer call).2.log.first = ledger.log.first := by
  cases call with
  | readFrom position =>
      simp only [answer, MemoryLog.answer]
      split <;> simp [LogCall.appended, LogCall.stored]
  | manifest => simp [answer, MemoryLog.answer, LogCall.appended, LogCall.stored]
  | initializeManifest manifest =>
      simp [answer, MemoryLog.answer, LogCall.appended, LogCall.stored]
  | state => simp [answer, MemoryLog.answer, LogCall.appended, LogCall.stored]
  | head => simp [answer, MemoryLog.answer, LogCall.appended, LogCall.stored]
  | _ => cases quiet

theorem Consistent.answer_quiet (consistent : ledger.Consistent schema) {α : Type}
    {call : LogCall α} (quiet : Quiet call) : (ledger.answer call).2.Consistent schema := by
  obtain ⟨appended, documents, first⟩ := Ledger.answer_quiet quiet ledger
  exact consistent.of_same (consistent.tidy.answer call) appended documents first

theorem answer_readFrom_of_le {position : Nat} (kept : ledger.log.first ≤ position) :
    ledger.answer (.readFrom position) = (.ok (ledger.log.since position), ledger) := by
  simp [answer, MemoryLog.answer, Nat.not_lt.mpr kept, LogCall.appended, LogCall.stored]

theorem answer_readFrom_of_lt {position : Nat} (dropped : position < ledger.log.first) :
    ledger.answer (.readFrom position) =
      (.error (.compacted position ledger.log.first), ledger) := by
  simp [answer, MemoryLog.answer, dropped, LogCall.appended, LogCall.stored]

/-! ### Calls that store a snapshot, or do not -/

theorem answer_replaceState_of_eq {expected : Option Nat} {document : StateDocument}
    (same : ledger.log.state.map StateDocument.revision = expected) :
    ledger.answer (.replaceState expected document) =
      (.ok (), ⟨{ ledger.log with state := some document }, ledger.appended,
        ledger.documents ++ [document]⟩) := by
  simp [answer, MemoryLog.answer, same, LogCall.appended, LogCall.stored]

theorem answer_replaceState_of_ne {expected : Option Nat} {document : StateDocument}
    (different : ledger.log.state.map StateDocument.revision ≠ expected) :
    ledger.answer (.replaceState expected document) =
      (.error (.revisionConflict expected (ledger.log.state.map StateDocument.revision)),
        ledger) := by
  simp [answer, MemoryLog.answer, different, LogCall.appended, LogCall.stored]

theorem answer_upgrade_of_eq {expected manifest : Manifest} {document : Option StateDocument}
    (same : ledger.log.manifest = some expected) :
    ledger.answer (.upgrade expected manifest document) =
      (.ok (), ⟨{ ledger.log with
          manifest := some manifest, state := document.or ledger.log.state },
        ledger.appended, ledger.documents ++ document.toList⟩) := by
  cases document <;> simp [answer, MemoryLog.answer, same, LogCall.appended, LogCall.stored]

theorem answer_upgrade_of_ne {expected manifest : Manifest} {document : Option StateDocument}
    (different : ledger.log.manifest ≠ some expected) :
    ledger.answer (.upgrade expected manifest document) =
      (.error (.manifestMismatch (ledger.log.manifest.getD expected) manifest), ledger) := by
  cases document <;>
    simp [answer, MemoryLog.answer, different, LogCall.appended, LogCall.stored]

/-- A first snapshot may be stored, or refused when there is one. -/
theorem Consistent.replaceState_none (consistent : ledger.Consistent schema)
    {document : StateDocument} (inside : document.position ≤ ledger.appended.length) :
    (ledger.answer (.replaceState none document)).2.Consistent schema := by
  have tidy := consistent.tidy.answer (.replaceState none document)
  by_cases same : ledger.log.state.map StateDocument.revision = none
  · have joined : ledger.documents = [] := by
      rw [consistent.tidy.latest, Option.map_eq_none_iff] at same
      exact List.getLast?_eq_none_iff.mp same
    rw [answer_replaceState_of_eq same] at tidy ⊢
    exact consistent.store tidy rfl rfl rfl inside fun stored => absurd joined stored
  · rw [answer_replaceState_of_ne same]
    exact consistent

/-- A snapshot has been stored, and its records have been appended. -/
def Holds (ledger : Ledger) (document : StateDocument) : Prop :=
  document ∈ ledger.documents ∧ document.position ≤ ledger.appended.length

theorem Holds.of_grows {document : StateDocument} (held : before.Holds document)
    (grows : before.Grows after) : after.Holds document :=
  ⟨grows.documents.subset held.1, Nat.le_trans held.2 grows.appended.length_le⟩

/-- A snapshot could be stored: its records have been appended, and it was made from one that has
been stored. -/
def Offers (schema : Schema) (ledger : Ledger) (document : StateDocument) : Prop :=
  document.position ≤ ledger.appended.length ∧
    ∃ earlier ∈ ledger.documents, MadeFrom schema ledger earlier document

theorem Offers.of_grows {document : StateDocument} (offered : before.Offers schema document)
    (grows : before.Grows after) : after.Offers schema document := by
  obtain ⟨inside, earlier, stored, made⟩ := offered
  refine ⟨Nat.le_trans inside grows.appended.length_le, earlier, ?_, made.of_grows grows inside⟩
  exact grows.documents.subset stored

/-- A snapshot in another format is made from the one it was converted from. -/
theorem Holds.offers {preferred manifest : Manifest} {document converted : StateDocument}
    (held : ledger.Holds document)
    (converts : preferred.upgradeFrom manifest document = .ok converted) :
    ledger.Offers schema converted := by
  simp only [Manifest.upgradeFrom, Manifest.reencode] at converts
  split at converts
  · cases read : document.node? with
    | none => simp [read] at converts
    | some root =>
        simp only [read] at converts
        cases converts
        refine ⟨held.2, document, held.1, rfl, Nat.le_refl _, Or.inr ⟨rfl, root, read, rfl⟩⟩
  · cases converts

/-- A snapshot made from an earlier one may be stored. -/
theorem Consistent.store_offered (consistent : before.Consistent schema)
    {document : StateDocument} (offered : before.Offers schema document)
    (tidy : after.Tidy) (appended : after.appended = before.appended)
    (documents : after.documents = before.documents ++ [document])
    (first : after.log.first = before.log.first) : after.Consistent schema :=
  consistent.store tidy appended documents first offered.1 fun _ => offered.2

/-- A snapshot made from an earlier one may be stored in the place of one of its revision, whether
or not that is the one it was made from. -/
theorem Consistent.replaceState_some (consistent : ledger.Consistent schema)
    {document : StateDocument} (offered : ledger.Offers schema document)
    (expected : Option Nat) :
    (ledger.answer (.replaceState expected document)).2.Consistent schema := by
  have tidy := consistent.tidy.answer (.replaceState expected document)
  by_cases same : ledger.log.state.map StateDocument.revision = expected
  · rw [answer_replaceState_of_eq same] at tidy ⊢
    exact consistent.store_offered offered tidy rfl rfl rfl
  · rw [answer_replaceState_of_ne same]
    exact consistent

/-- The manifest may be changed with a snapshot made from an earlier one, or with none. -/
theorem Consistent.upgrade (consistent : ledger.Consistent schema) (expected manifest : Manifest)
    {document : Option StateDocument}
    (offered : ∀ converted, document = some converted → ledger.Offers schema converted) :
    (ledger.answer (.upgrade expected manifest document)).2.Consistent schema := by
  have tidy := consistent.tidy.answer (.upgrade expected manifest document)
  by_cases same : ledger.log.manifest = some expected
  · rw [answer_upgrade_of_eq same] at tidy ⊢
    cases document with
    | none => exact consistent.of_same tidy rfl (List.append_nil _) rfl
    | some converted => exact consistent.store_offered (offered converted rfl) tidy rfl rfl rfl
  · rw [answer_upgrade_of_ne same]
    exact consistent

end Ledger

namespace LogProgram

variable {α : Type} {schema : Schema}

/-- A quiet call ensures what it says of its answer, and of a failure. -/
theorem call_quiet {call : LogCall α} (quiet : Ledger.Quiet call)
    {post : Except LogError α → Ledger → Prop} {ledger : Ledger}
    (answered : ∀ later : Ledger, ledger.Grows later → later.Consistent schema →
      post (later.answer call).1 (later.answer call).2)
    (refused : ∀ later error, post (.error error) later) :
    Call (Ledger.Consistent schema) post call ledger := by
  intro later grows consistent
  exact ⟨consistent.answer_quiet quiet, answered later grows consistent,
    fun error _ => refused later error⟩

/-- An assertion on success only. -/
def Returns (post : α → Ledger → Prop) (result : Except LogError α) (ledger : Ledger) : Prop :=
  ∀ value, result = .ok value → post value ledger

theorem returns_error (post : α → Ledger → Prop) (error : LogError) (ledger : Ledger) :
    Returns post (.error error) ledger := by
  intro value same
  cases same

end LogProgram

namespace ReplicaSettings

open LogProgram

variable (settings : ReplicaSettings) {schema : Schema} {ledger : Ledger}

/-- A snapshot that is read has been stored. -/
theorem call_state : Call (Ledger.Consistent schema)
    (Returns fun state later => ∀ document, state = some document → later.Holds document)
    .state ledger := by
  have quiet : Ledger.Quiet LogCall.state := trivial
  refine call_quiet quiet ?_ fun later error => returns_error _ error later
  intro later grows consistent state same document found
  have stored : later.log.state = state := Except.ok.inj same
  have latest := consistent.tidy.latest.symm.trans (stored.trans found)
  have member := List.mem_of_getLast? latest
  have held : later.Holds document := ⟨member, consistent.inside document member⟩
  exact held.of_grows (later.grows_answer _)

theorem ensures_loadState :
    settings.loadState.Ensures (Ledger.Consistent schema)
      (Returns fun state later => ∀ document, state = some document → later.Holds document)
      ledger :=
  ensures_attempt call_state

/-- Storing the first snapshot keeps the ledger consistent, and the one that is there then has been
stored. -/
theorem ensures_storeFirst (root : Node) :
    (settings.storeFirst root).Ensures (Ledger.Consistent schema)
      (Returns fun state later => ∀ document, state = some document → later.Holds document)
      ledger := by
  have quiet : Ledger.Quiet LogCall.head := trivial
  apply Ensures.bind
  apply ensures_attempt
  refine call_quiet quiet ?_ fun later error => returns_error _ error later
  intro later grows consistent
  have head : later.log.head = later.appended.length := consistent.tidy.head_eq
  refine Ensures.recover (Ensures.bind (ensures_call ?_))
  intro now further holds
  have inside : later.log.head ≤ now.appended.length := by
    have growth := further.appended.length_le
    have same : (later.answer .head).2.appended.length = later.appended.length := by
      simp [Ledger.answer, MemoryLog.answer, LogCall.appended]
    omega
  refine ⟨holds.replaceState_none inside, ?_, fun error transient => ?_⟩
  · by_cases empty : now.log.state.map StateDocument.revision = none
    · rw [Ledger.answer_replaceState_of_eq empty]
      intro state same document found
      cases same
      cases found
      exact ⟨by simp, inside⟩
    · rw [Ledger.answer_replaceState_of_ne empty]
      exact call_state
  · rcases LogError.transient_cases transient with rfl | ⟨reason, rfl⟩
    · exact returns_error _ _ _
    · exact returns_error _ _ _

/-- The stored snapshot, or the first one, made of a tree. -/
def obtain (root : Node) : LogProgram (Option StateDocument) := do
  let state ← settings.loadState
  match state with
  | some document => pure (some document)
  | none => settings.storeFirst root

theorem ensures_obtain (root : Node) :
    (settings.obtain root).Ensures (Ledger.Consistent schema)
      (Returns fun state later => ∀ document, state = some document → later.Holds document)
      ledger := by
  apply Ensures.bind
  apply (ensures_loadState settings).weaken
  intro result later known
  cases result with
  | error error => exact returns_error _ error later
  | ok state =>
      cases state with
      | none => exact ensures_storeFirst settings root
      | some document => exact known

theorem ensures_requireState (absence : String) :
    (settings.requireState absence).Ensures (Ledger.Consistent schema)
      (Returns fun document later => later.Holds document) ledger := by
  apply Ensures.bind
  apply (ensures_loadState settings).weaken
  intro result later known
  cases result with
  | error error => exact returns_error _ error later
  | ok state =>
      cases state with
      | none => exact returns_error _ _ later
      | some document =>
          intro value same
          cases same
          exact known _ rfl document rfl

/-- Loading a snapshot gives its tree, if it has one. -/
theorem load_eq (document : StateDocument) :
    document.load schema =
      match document.tree? schema with
      | some root => .done (.ok root)
      | none => .fail .codec := by
  unfold StateDocument.load StateDocument.tree?
  cases document.node? <;> rfl

/-- A replay gives the tree of a stored snapshot with the records between its position and the one
asked for folded in. -/
theorem ensures_replay {upTo : Nat} :
    (settings.replay schema upTo).Ensures (Ledger.Consistent schema)
      (Returns fun replayed later => ∃ document ∈ later.documents, ∃ root,
        document.tree? schema = some root ∧ replayed = ⟨document.revision, document.position,
          later.fold schema document.position upTo root⟩) ledger := by
  apply Ensures.bind
  apply (ensures_requireState settings _).weaken
  intro result later known
  cases result with
  | error error => exact returns_error _ error later
  | ok document =>
      obtain ⟨stored, -⟩ := known document rfl
      apply Ensures.bind
      rw [load_eq]
      cases read : document.tree? schema with
      | none =>
          intro value same
          cases same
      | some root =>
          have quiet : Ledger.Quiet (LogCall.readFrom document.position) := trivial
          apply Ensures.bind
          apply ensures_attempt
          refine call_quiet quiet ?_ fun later error => returns_error _ error later
          intro now grows consistent
          rcases Nat.lt_or_ge document.position now.log.first with dropped | kept
          · rw [Ledger.answer_readFrom_of_lt dropped]
            exact returns_error _ _ now
          · rw [Ledger.answer_readFrom_of_le kept]
            intro replayed same
            cases same
            refine ⟨document, grows.documents.subset stored, root, read, ?_⟩
            rw [consistent.tidy.since_eq kept, consistent.tidy.filter_drop]
            rfl

/-! ### What each program keeps -/

/-- Compaction keeps the ledger consistent when its position is not beyond the head: the snapshot it
stores was made from one that had been stored, by folding records that are still there. -/
theorem ensures_compact {position : Nat} (inside : position ≤ ledger.appended.length) :
    (settings.compact schema position).Ensures (Ledger.Consistent schema) (fun _ _ => True)
      ledger := by
  have stable : Stable fun later => position ≤ later.appended.length := fun before after grows =>
    fun inside => Nat.le_trans inside grows.appended.length_le
  apply Ensures.bind
  apply ((ensures_replay settings).keep stable inside).weaken
  rintro result later ⟨known, inside⟩
  cases result with
  | error error => trivial
  | ok replayed =>
      obtain ⟨document, stored, root, read, rfl⟩ := known replayed rfl
      by_cases covered : position ≤ document.position
      · simp only [covered, if_true]
        trivial
      · simp only [covered, if_false]
        have offered : later.Offers schema (StateDocument.ofNode
            (later.fold schema document.position position root) settings.manifest.format
            (document.revision + 1) position) := by
          refine ⟨inside, document, stored, rfl, Nat.le_of_not_le covered, ?_⟩
          exact Or.inl ⟨root, read, rfl⟩
        apply Ensures.bind
        apply ensures_call
        intro now grows consistent
        have kept := consistent.replaceState_some (offered.of_grows grows) (some document.revision)
        refine ⟨kept, ?_, fun error transient => trivial⟩
        by_cases same : now.log.state.map StateDocument.revision = some document.revision
        · rw [Ledger.answer_replaceState_of_eq same]
          apply ensures_call
          intro last further holds
          have member := further.documents.subset
            (List.mem_append_right _ (List.mem_singleton_self _))
          exact ⟨holds.discard member (Nat.le_refl position), trivial,
            fun error transient => trivial⟩
        · rw [Ledger.answer_replaceState_of_ne same]
          trivial

/-- Switching the manifest keeps the ledger consistent when the snapshot that goes with it was made
from one that had been stored. -/
theorem ensures_switchManifest {stored : Manifest} {document : Option StateDocument}
    (offered : ∀ converted, document = some converted → ledger.Offers schema converted) :
    (settings.switchManifest stored document).Ensures (Ledger.Consistent schema)
      (fun _ _ => True) ledger := by
  apply Ensures.recover
  apply ensures_call
  intro later grows consistent
  refine ⟨consistent.upgrade stored settings.manifest ?_, ?_, ?_⟩
  · intro converted same
    exact (offered converted same).of_grows grows
  · by_cases same : later.log.manifest = some stored
    · rw [Ledger.answer_upgrade_of_eq same]
      trivial
    · rw [Ledger.answer_upgrade_of_ne same]
      have quiet : Ledger.Quiet LogCall.manifest := trivial
      intro now further holds
      refine ⟨holds.answer_quiet quiet, ?_, fun error transient => trivial⟩
      cases found : now.log.manifest with
      | none => simp [Ledger.answer, MemoryLog.answer, found, LogProgram.fail, Ensures]
      | some manifest =>
          simp only [Ledger.answer, MemoryLog.answer, found]
          split <;> trivial
  · intro error transient
    rcases LogError.transient_cases transient with rfl | ⟨reason, rfl⟩
    · trivial
    · trivial

/-- Agreeing on a manifest keeps the ledger consistent. -/
theorem ensures_negotiate :
    settings.negotiate.Ensures (Ledger.Consistent schema) (fun _ _ => True) ledger := by
  have quiet : Ledger.Quiet (LogCall.initializeManifest settings.manifest) := trivial
  refine Ensures.bind (ensures_attempt (call_quiet quiet ?_ fun _ _ => trivial))
  intro later grows consistent
  simp only [Ledger.answer, MemoryLog.answer]
  generalize later.log.manifest.getD settings.manifest = stored
  split
  · trivial
  · split
    · apply Ensures.bind
      apply (ensures_attempt call_state).weaken
      intro result now known
      cases result with
      | error error => trivial
      | ok state =>
          cases state with
          | none => exact ensures_switchManifest settings fun converted none => by cases none
          | some document =>
              have held : now.Holds document := known _ rfl document rfl
              apply Ensures.bind
              cases converts : settings.manifest.upgradeFrom stored document with
              | error error => trivial
              | ok converted =>
                  refine ensures_switchManifest settings fun result same => ?_
                  cases same
                  exact held.offers converts
    · trivial

/-- Appending keeps the ledger consistent. -/
theorem ensures_append (correlation : Uuid) (body : RecordBody) :
    (settings.attempt (.append correlation body)).Ensures (Ledger.Consistent schema)
      (fun _ _ => True) ledger := by
  apply ensures_attempt
  intro later grows consistent
  exact ⟨consistent.append correlation body, trivial, fun error transient => trivial⟩

end ReplicaSettings

end StateTree
