/-
Module: StateTree.Proofs.Readers
Purpose: What a replica reads of a log that others call meanwhile. It joins with the tree of a
  snapshot that was stored, and catching up gives it the records from its position on, without a
  gap, or a later snapshot when the first of them are gone.
-/
import StateTree.Proofs.Lineage

namespace StateTree

namespace LogProgram

variable {α : Type} {invariant other : Ledger → Prop} {ledger : Ledger}

/-- What is ensured of the results under one invariant, beside another one. -/
theorem Ensures.beside {post : Except LogError α → Ledger → Prop} {program : LogProgram α}
    (ensures : program.Ensures invariant post ledger)
    (keeps : program.Ensures other (fun _ _ => True) ledger) :
    program.Ensures (fun ledger => invariant ledger ∧ other ledger) post ledger :=
  (ensures.both keeps).weaken fun _ _ known => known.1

end LogProgram

namespace ReplicaSettings

open LogProgram

variable (settings : ReplicaSettings) {schema : Schema} {ledger : Ledger}

/-! ### Joining -/

/-- Agree on a manifest, and load the stored snapshot, or store the first one: the position that the
replica starts from, and its tree. -/
def join (schema : Schema) (root : Node) : LogProgram (Nat × Node) := do
  settings.negotiate
  let state ← settings.obtain root
  match state with
  | some document => do
      let tree ← document.load schema
      pure (document.position, tree)
  | none => .fail (.backend "state document vanished")

/-- A tree that a snapshot of a position stands for. -/
def Loaded (schema : Schema) (ledger : Ledger) (position : Nat) (tree : Node) : Prop :=
  ∃ document ∈ ledger.documents, document.position = position ∧
    document.tree? schema = some tree ∧ position ≤ ledger.appended.length

theorem stable_loaded (position : Nat) (tree : Node) :
    Stable fun ledger => Loaded schema ledger position tree := by
  rintro before after grows ⟨document, stored, same, read, inside⟩
  exact ⟨document, grows.documents.subset stored, same, read,
    Nat.le_trans inside grows.appended.length_le⟩

/-- Who joins a log starts from a snapshot that was stored in it, at its position and with its tree,
whatever others do between the calls. -/
theorem ensures_join (root : Node) :
    (settings.join schema root).Ensures (Ledger.Consistent schema)
      (Returns fun joined later => Loaded schema later joined.1 joined.2) ledger := by
  apply Ensures.bind
  apply (ensures_negotiate settings).weaken
  intro result later _
  cases result with
  | error error => exact returns_error _ error later
  | ok agreed =>
      apply Ensures.bind
      apply (ensures_obtain settings root).weaken
      intro result now known
      cases result with
      | error error => exact returns_error _ error now
      | ok state =>
          cases state with
          | none =>
              intro joined same
              cases same
          | some document =>
              have held : now.Holds document := known _ rfl document rfl
              apply Ensures.bind
              rw [load_eq]
              cases read : document.tree? schema with
              | none =>
                  intro tree same
                  cases same
              | some tree =>
                  intro joined same
                  cases same
                  exact ⟨document, held.1, rfl, read, held.2⟩

/-! ### Catching up -/

/-- What there is to apply from a position on: records without a gap, or a snapshot. -/
def Pending (ledger : Ledger) (position : Nat) : Arrears → Prop
  | .records records => ∃ stop, position ≤ stop ∧ stop ≤ ledger.appended.length ∧
      records = ledger.between position stop
  | .snapshot jump _ => jump ≤ ledger.appended.length

/-- A reload gives a snapshot that lies within the log. -/
theorem ensures_reload {position : Nat} :
    (settings.reload schema).Ensures (Ledger.Consistent schema)
      (Returns fun arrears later => Pending later position arrears) ledger := by
  apply Ensures.bind
  apply (ensures_requireState settings _).weaken
  intro result later known
  cases result with
  | error error => exact returns_error _ error later
  | ok document =>
      obtain ⟨-, inside⟩ := known document rfl
      apply Ensures.bind
      rw [load_eq]
      cases document.tree? schema with
      | none =>
          intro tree same
          cases same
      | some tree =>
          intro arrears same
          cases same
          exact inside

/-- Catching up from a position within the log gives the records from there on without a gap, or,
when the first of them are gone, a snapshot. -/
theorem ensures_catchUp {position : Nat} (inside : position ≤ ledger.appended.length) :
    (settings.catchUp schema position).Ensures (Ledger.Consistent schema)
      (Returns fun arrears later => Pending later position arrears) ledger := by
  have quiet : Ledger.Quiet (LogCall.readFrom position) := trivial
  refine Ensures.recover (Ensures.bind (ensures_attempt ?_))
  intro later grows consistent
  have reached := Nat.le_trans inside grows.appended.length_le
  refine ⟨consistent.answer_quiet quiet, ?_, ?_⟩
  · rcases Nat.lt_or_ge position later.log.first with dropped | kept
    · rw [Ledger.answer_readFrom_of_lt dropped]
      exact ensures_reload settings
    · rw [Ledger.answer_readFrom_of_le kept, consistent.tidy.since_eq kept]
      intro arrears same
      cases same
      refine ⟨later.appended.length, reached, Nat.le_refl _, ?_⟩
      rw [Ledger.between_length, List.filter_eq_self]
      intro record member
      simpa using consistent.tidy.le_number member
  · intro error transient
    rcases LogError.transient_cases transient with rfl | ⟨reason, rfl⟩
    · exact returns_error _ _ _
    · exact returns_error _ _ _

/-! ### What reading leaves as it is -/

section Begun

variable {prompt : Prop} {property : StateDocument → Prop}

theorem begun_load (document : StateDocument) :
    (document.load schema).Ensures (Ledger.Begun prompt property) (fun _ _ => True) ledger := by
  rw [load_eq]
  cases document.tree? schema <;> trivial

/-- Who joins may store the first snapshot, of the own root; the first snapshot that is there
stays. -/
theorem begun_join (root : Node)
    (has : ∀ head, (prompt → head = 0) →
      property (.ofNode root settings.preferredFormat 1 head)) :
    (settings.join schema root).Ensures (Ledger.Begun prompt property) (fun _ _ => True)
      ledger := by
  refine ensures_then (begun_negotiate settings) fun _ later => ?_
  refine ensures_then (begun_obtain settings root has) fun state now => ?_
  cases state with
  | none => trivial
  | some document => exact ensures_then (begun_load document) fun _ _ => trivial

/-- To catch up stores no snapshot. -/
theorem begun_catchUp (position : Nat) :
    (settings.catchUp schema position).Ensures (Ledger.Begun prompt property) (fun _ _ => True)
      ledger := by
  have reload (later : Ledger) :
      (settings.reload schema).Ensures (Ledger.Begun prompt property) (fun _ _ => True) later := by
    apply ensures_then ((begun_requireState settings _).weaken fun _ _ _ => trivial)
    intro document now
    exact ensures_then (begun_load document) fun _ _ => trivial
  have read : (settings.attempt (.readFrom position)).Ensures (Ledger.Begun prompt property)
      (fun _ _ => True) ledger := by
    refine ensures_attempt fun later grows begun => ?_
    exact ⟨begun.answer_quiet trivial, trivial, fun error transient => trivial⟩
  refine ensures_else (ensures_then read fun records later => trivial) fun error later => ?_
  cases error with
  | compacted requested first => exact reload later
  | _ => trivial

end Begun

section Uniform

variable {format : StateFormat} {kind : RecordBody → Prop} {settings}

theorem uniform_load (document : StateDocument) :
    (document.load schema).Ensures (Ledger.Uniform format kind) (fun _ _ => True) ledger := by
  rw [load_eq]
  cases document.tree? schema <;> trivial

/-- Who joins stores no snapshot but in the format that is preferred. -/
theorem uniform_join (prefers : settings.preferredFormat = format) (root : Node) :
    (settings.join schema root).Ensures (Ledger.Uniform format kind) (fun _ _ => True)
      ledger := by
  refine ensures_then (uniform_negotiate prefers) fun _ later => ?_
  refine ensures_then (uniform_obtain prefers root) fun state now => ?_
  cases state with
  | none => trivial
  | some document => exact ensures_then (uniform_load document) fun _ _ => trivial

theorem uniform_catchUp (position : Nat) :
    (settings.catchUp schema position).Ensures (Ledger.Uniform format kind) (fun _ _ => True)
      ledger := by
  have reload (later : Ledger) :
      (settings.reload schema).Ensures (Ledger.Uniform format kind) (fun _ _ => True) later := by
    refine ensures_then (ensures_then (uniform_loadState settings) ?_) fun document now => ?_
    · intro state now
      cases state <;> trivial
    · exact ensures_then (uniform_load document) fun _ _ => trivial
  have plain : Ledger.Plain format kind (.readFrom position) := trivial
  have read : (settings.attempt (.readFrom position)).Ensures (Ledger.Uniform format kind)
      (fun _ _ => True) ledger :=
    ensures_attempt (uniform_call plain)
  refine ensures_else (ensures_then read fun records later => trivial) fun error later => ?_
  cases error with
  | compacted requested first => exact reload later
  | _ => trivial

end Uniform

end ReplicaSettings

end StateTree
