/-
Module: StateTree.Proofs.Submissions
Purpose: Updates that pass the checks of their submission. The checks look at no tree and applying
  looks at one, but nothing that the checks let through fails: on any valid tree the update has no
  effect, for one of four reasons, or gives what storing or deleting at its target gives.
-/
import StateTree.Proofs.Mirroring
import StateTree.Proofs.Removal
import StateTree.Proofs.Untouched
import StateTree.Site.Submission

namespace StateTree

/-- A node is read at a path of a tree. -/
def Schema.Reads (schema : Schema) (root : Node) (path : Path) (node : Node) : Prop :=
  ∃ accessor, schema.resolve path = .ok accessor ∧ accessor.get root = .ok node

/-- What is read at a path that resolves is read by its accessor. -/
theorem Schema.reads_iff {schema : Schema} {root node : Node} {path : Path} {accessor : Accessor}
    (resolved : schema.resolve path = .ok accessor) :
    schema.Reads root path node ↔ accessor.get root = .ok node := by
  simp [Reads, resolved]

namespace Operation

/-- The reasons for an operation to have no effect on a tree. -/
inductive Idle (schema : Schema) (root : Node) (operation : Operation) : Prop
  /-- The identifier required is not read where the precondition looks. -/
  | unmet {condition : Path} {required : Identifier}
      (looks : operation.precondition? = some (condition, required))
      (unread : ¬ schema.Reads root condition (.id required))
  /-- Something is read already at the location to initialize. -/
  | present {node : Node} (initializes : operation.kind = .initialization)
      (read : schema.Reads root operation.target node)
  /-- There is a value to store, but nothing is stored at some path above its place. -/
  | groundless {value : Node} {ancestor : Path} (stores : operation.value? = some value)
      (above : ancestor ∈ Reference.ancestors operation.target)
      (bare : ¬ schema.Stores root ancestor)
  /-- There is nothing to delete. -/
  | absent (deletes : operation.value? = none) (missing : ¬ schema.Stores root operation.target)

/-- The tree with the value of an operation stored at its target, or with nothing there where the
operation has no value. -/
def outcome (operation : Operation) (schema : Schema) (target : Accessor) (root : Node) :
    Except TreeError Node :=
  match operation.value? with
  | some value => target.set schema root value
  | none => target.delete root

/-- What is known of an operation that passed the checks of its submission: its target resolves, its
value or its deletion suits the target, and its precondition looks at a concrete location of
identifiers. -/
structure Cleared (operation : Operation) (schema : Schema) (target : Accessor) : Prop where
  resolved : schema.resolve operation.target = .ok target
  checked : operation.Checked schema target
  looks : ∀ path required, operation.precondition? = some (path, required) →
    path.isParameterized = false ∧ ∃ accessor, schema.resolveAs path .identifier = .ok accessor

variable {schema : Schema} {operation : Operation} {target accessor : Accessor} {root value : Node}
  {path : Path} {required : Identifier}

/-! ### Conditions -/

/-- Of a concrete location of identifiers it can be told whether it holds the one required: it does
when that is read there. -/
theorem holds_cases (sound : schema.SoundDomains) (valid : schema.Valid root)
    (free : path.isParameterized = false)
    (identifies : schema.resolveAs path .identifier = .ok accessor) (required : Identifier) :
    (schema.Reads root path (.id required) ∧ holds schema root path required = .ok true) ∨
      (¬ schema.Reads root path (.id required) ∧
        holds schema root path required = .ok false) := by
  obtain ⟨resolved, accepts⟩ := Schema.resolveAs_eq_ok_iff.mp identifies
  have typed : accessor.target = .identifier := by
    unfold Kind.accepts at accepts
    split at accepts <;> first | assumption | contradiction
  rw [Schema.reads_iff resolved, holds, identifies, ok_bind]
  rcases accessor.get_reaches sound valid free resolved with ⟨node, read, fits⟩ | absent
  · rw [typed] at fits
    obtain ⟨id, rfl⟩ := fits.identifier_inv
    by_cases same : id = required
    · exact Or.inl ⟨by rw [read, same], by simp [read, Node.asId, same]⟩
    · exact Or.inr ⟨by simp [read, same], by simp [read, Node.asId, same]⟩
  · exact Or.inr ⟨by simp [absent], by simp [absent]⟩

/-- It can be told of a precondition that passed the checks whether it is met. -/
theorem Cleared.mayProceed_cases (cleared : operation.Cleared schema target)
    (sound : schema.SoundDomains) (valid : schema.Valid root) :
    ((∀ path required, operation.precondition? = some (path, required) →
        schema.Reads root path (.id required)) ∧
      operation.mayProceed schema root = .ok true) ∨
    ((∃ path required, operation.precondition? = some (path, required) ∧
        ¬ schema.Reads root path (.id required)) ∧
      operation.mayProceed schema root = .ok false) := by
  unfold mayProceed
  cases looked : operation.precondition? with
  | none => exact Or.inl ⟨nofun, rfl⟩
  | some condition =>
      obtain ⟨path, required⟩ := condition
      obtain ⟨free, accessor, identifies⟩ := cleared.looks path required looked
      rcases holds_cases sound valid free identifies required with ⟨read, held⟩ | ⟨unread, held⟩
      · refine Or.inl ⟨?_, held⟩
        rintro _ _ ⟨⟩
        exact read
      · exact Or.inr ⟨⟨path, required, rfl, unread⟩, held⟩

/-! ### Effects -/

/-- A value that passes its checks takes effect where something is stored at every path above its
place. -/
theorem replace_cases (valid : schema.Valid root) (resolved : schema.resolve path = .ok target)
    (checked : target.checkValue schema value = .ok ()) :
    ((∀ ancestor ∈ Reference.ancestors path, schema.Stores root ancestor) ∧
        ∃ after, replace schema target root value = .ok (some after) ∧
          target.set schema root value = .ok after) ∨
      (¬ (∀ ancestor ∈ Reference.ancestors path, schema.Stores root ancestor) ∧
        replace schema target root value = .ok none) := by
  rw [Schema.stores_ancestors_iff resolved]
  rcases Accessor.set_cases valid resolved checked with ⟨stored, after, written⟩ | ⟨missing, failed⟩
  · exact Or.inl ⟨stored, after, by simp [replace, written], written⟩
  · exact Or.inr ⟨by simp [missing], by simp [replace, failed]⟩

/-- A deletion that passes its check takes effect where something is stored at the target. -/
theorem remove_cases (valid : schema.Valid root) (resolved : schema.resolve path = .ok target)
    (checked : target.checkDeletable = .ok ()) :
    (schema.Stores root path ∧
        ∃ after, remove target root = .ok (some after) ∧ target.delete root = .ok after) ∨
      (¬ schema.Stores root path ∧ remove target root = .ok none) := by
  rw [Schema.stores_iff resolved]
  rcases Accessor.delete_cases valid resolved checked with
    ⟨stored, after, deleted, changes⟩ | ⟨missing, left⟩
  · have differs := changes.ne_of_stored stored
    exact Or.inl ⟨stored, after, by simp [remove, deleted, differs], deleted⟩
  · exact Or.inr ⟨by simp [missing], by simp [remove, left]⟩

/-- The five sorts of operation do two things, once they may: they store their value, unless they
initialize what is there, or they delete. -/
theorem apply_eq (resolved : schema.resolve operation.target = .ok target)
    (met : operation.mayProceed schema root = .ok true) :
    operation.apply schema root =
      match operation.value? with
      | some value =>
          if operation.kind = .initialization ∧ target.exists? root = true then .ok none
          else replace schema target root value
      | none => remove target root := by
  rw [apply, resolved, ok_bind, met, ok_bind, if_pos rfl]
  cases operation with
  | initialization target value => simp [value?, kind]
  | _ => rfl

/-- An operation has an effect when there is no reason against it. -/
theorem not_idle
    (met : ∀ path required, operation.precondition? = some (path, required) →
      schema.Reads root path (.id required))
    (unread : operation.kind = .initialization → ∀ node, ¬ schema.Reads root operation.target node)
    (grounded : operation.value? ≠ none →
      ∀ ancestor ∈ Reference.ancestors operation.target, schema.Stores root ancestor)
    (stored : operation.value? = none → schema.Stores root operation.target) :
    ¬ operation.Idle schema root := by
  rintro (⟨looks, lacks⟩ | ⟨initializes, read⟩ | ⟨stores, above, bare⟩ | ⟨deletes, missing⟩)
  · exact lacks (met _ _ looks)
  · exact unread initializes _ read
  · exact bare (grounded (by simp [stores]) _ above)
  · exact missing (stored deletes)

/-- An operation that passed the checks of its submission never fails on a valid tree. It has no
effect for one of the reasons to have none, and otherwise gives what storing or deleting at its
target gives. -/
theorem Cleared.apply_cases (cleared : operation.Cleared schema target)
    (sound : schema.SoundDomains) (valid : schema.Valid root) :
    (operation.Idle schema root ∧ operation.apply schema root = .ok none) ∨
      (¬ operation.Idle schema root ∧ ∃ after, operation.apply schema root = .ok (some after) ∧
        operation.outcome schema target root = .ok after) := by
  obtain ⟨met, proceeds⟩ | ⟨⟨path, required, looked, unread⟩, stops⟩ :=
    cleared.mayProceed_cases sound valid
  case inr =>
    exact Or.inl ⟨.unmet looked unread, by rw [apply, cleared.resolved, ok_bind, stops]; rfl⟩
  have applied := apply_eq cleared.resolved proceeds
  have checked := cleared.checked
  unfold Checked at checked
  unfold outcome
  cases stores : operation.value? with
  | some value =>
      rw [stores] at applied checked
      -- An initialization looks at its target first, with the eyes of a reader.
      by_cases present : operation.kind = .initialization ∧ target.exists? root = true
      · obtain ⟨node, read⟩ := target.exists?_iff.mp present.2
        refine Or.inl ⟨.present present.1 ((Schema.reads_iff cleared.resolved).mpr read), ?_⟩
        exact applied.trans (if_pos present)
      · replace applied := applied.trans (if_neg present)
        rcases replace_cases valid cleared.resolved checked with
          ⟨grounded, after, stored, written⟩ | ⟨bare, left⟩
        · have unread : operation.kind = .initialization →
              ∀ node, ¬ schema.Reads root operation.target node := fun initializes node read =>
            present ⟨initializes, target.exists?_iff.mpr
              ⟨node, (Schema.reads_iff cleared.resolved).mp read⟩⟩
          have idle := not_idle met unread (fun _ => grounded) (by simp [stores])
          exact Or.inr ⟨idle, after, applied.trans stored, written⟩
        · push Not at bare
          obtain ⟨ancestor, above, bare⟩ := bare
          exact Or.inl ⟨.groundless stores above bare, applied.trans left⟩
  | none =>
      rw [stores] at applied checked
      have plain : operation.kind ≠ .initialization := by
        cases operation <;> simp [kind, value?] at stores ⊢
      rcases remove_cases valid cleared.resolved checked with
        ⟨there, after, removed, deleted⟩ | ⟨missing, left⟩
      · have idle := not_idle met (absurd · plain) (by simp [stores]) fun _ => there
        exact Or.inr ⟨idle, after, applied.trans removed, deleted⟩
      · exact Or.inl ⟨.absent stores missing, applied.trans left⟩

end Operation

/-! ### Submission -/

section Submitting

variable {schema : Schema} {site : Nat} {reading : Reading} {path : Path} {target : Reference}
  {condition : Option (Reference × Identifier)} {value : Option Node} {kind : OperationKind}
  {operation : Operation} {root : Node}

/-- The precondition that a reference to identifiers makes looks at a concrete location of
identifiers. -/
theorem Reference.precondition_looks {reference : Reference} {looked : Path}
    (formed : Reference.new site schema View.identifier.reading path = .ok reference)
    (concrete : reference.precondition = .ok looked) :
    looked.isParameterized = false ∧
      ∃ accessor, schema.resolveAs looked .identifier = .ok accessor := by
  obtain ⟨resolved, -, -, -, accepts⟩ := new_cases formed
  unfold precondition at concrete
  split at concrete
  · cases concrete
  · rename_i free
    cases concrete
    refine ⟨by simpa [isParameterized] using free, reference.accessor, ?_⟩
    rw [Reference.path, Schema.path_of_resolve resolved]
    exact Schema.resolveAs_eq_ok_iff.mpr ⟨resolved, accepts⟩

/-- What submitting makes has passed its checks, whatever its sort. -/
theorem Operation.cleared_of_submitted
    (formed : Reference.new site schema reading path = .ok target)
    (identifies : ∀ reference required, condition = some (reference, required) →
      ∃ other place, Reference.new other schema View.identifier.reading place = .ok reference)
    (submitted : target.operation? value condition kind = some (.ok operation)) :
    operation.Cleared schema target.accessor := by
  obtain ⟨resolved, -, rfl, -, -⟩ := Reference.new_cases formed
  obtain rfl := Schema.path_of_resolve resolved
  have concrete {reference : Reference} {required : Identifier} {looked : Path}
      (given : condition = some (reference, required))
      (made : reference.precondition = .ok looked) :
      ∀ other wanted, some (looked, required) = some (other, wanted) →
        other.isParameterized = false ∧
          ∃ accessor, target.schema.resolveAs other .identifier = .ok accessor := by
    rintro _ _ ⟨⟩
    obtain ⟨_, _, formed⟩ := identifies reference required given
    exact Reference.precondition_looks formed made
  cases kind with
  | replacement =>
      obtain ⟨stored, -, submitted⟩ := Option.map_eq_some_iff.mp submitted
      obtain ⟨⟨⟩, checked, same⟩ := bind_eq_ok_iff.mp submitted
      cases same
      exact ⟨resolved, checked, nofun⟩
  | initialization =>
      obtain ⟨stored, -, submitted⟩ := Option.map_eq_some_iff.mp submitted
      obtain ⟨⟨⟩, checked, same⟩ := bind_eq_ok_iff.mp submitted
      cases same
      exact ⟨resolved, checked, nofun⟩
  | deletion =>
      obtain ⟨⟨⟩, checked, same⟩ := bind_eq_ok_iff.mp (Option.some.inj submitted)
      cases same
      exact ⟨resolved, checked, nofun⟩
  | conditionalReplacement =>
      obtain ⟨stored, -, submitted⟩ := Option.bind_eq_some_iff.mp submitted
      obtain ⟨⟨reference, required⟩, given, submitted⟩ := Option.bind_eq_some_iff.mp submitted
      obtain ⟨⟨⟩, checked, submitted⟩ := bind_eq_ok_iff.mp (Option.some.inj submitted)
      obtain ⟨looked, made, same⟩ := bind_eq_ok_iff.mp submitted
      cases same
      exact ⟨resolved, checked, concrete given made⟩
  | conditionalDeletion =>
      obtain ⟨⟨reference, required⟩, given, submitted⟩ := Option.bind_eq_some_iff.mp submitted
      obtain ⟨⟨⟩, checked, submitted⟩ := bind_eq_ok_iff.mp (Option.some.inj submitted)
      obtain ⟨looked, made, same⟩ := bind_eq_ok_iff.mp submitted
      cases same
      exact ⟨resolved, checked, concrete given made⟩

/-- An update that passes the checks of its submission never fails on a valid tree. It has no effect
exactly when the identifier required is not read where its precondition looks, when something is
read already at the location that it initializes, when nothing is stored at some path above the
place of its value, or when nothing is stored where it deletes. Otherwise it gives what storing its
value at the target gives, or deleting there. -/
theorem Operation.apply_submitted (sound : schema.SoundDomains) (valid : schema.Valid root)
    (formed : Reference.new site schema reading path = .ok target)
    (identifies : ∀ reference required, condition = some (reference, required) →
      ∃ other place, Reference.new other schema View.identifier.reading place = .ok reference)
    (submitted : target.operation? value condition kind = some (.ok operation)) :
    (operation.Idle schema root ∧ operation.apply schema root = .ok none) ∨
      (¬ operation.Idle schema root ∧ ∃ after, operation.apply schema root = .ok (some after) ∧
        operation.outcome schema target.accessor root = .ok after) :=
  (cleared_of_submitted formed identifies submitted).apply_cases sound valid

end Submitting

/-! ### In the sample -/

namespace Sample

/-- The reference to the note on `b`. -/
def goneNoteRef : Reference := ⟨0, schema, goneNote, View.node.reading⟩

/-- The reference to the identifier of the target `a`. -/
def ownIdRef : Reference := ⟨0, schema, ownId, View.identifier.reading⟩

/-- Delete the note on `b` if there is a target `a`. -/
def forget : Operation := .conditionalDeletion goneNote.path ownId.path a

/-- The conditional deletion of a note that dangles applies. -/
theorem forget_apply_submitted :
    schema.SoundDomains ∧ schema.Valid tree ∧
      Reference.new 0 schema View.node.reading goneNote.path = .ok goneNoteRef ∧
      Reference.new 0 schema View.identifier.reading ownId.path = .ok ownIdRef ∧
      goneNoteRef.operation? none (some (ownIdRef, a)) .conditionalDeletion = some (.ok forget) ∧
      ((forget.Idle schema tree ∧ forget.apply schema tree = .ok none) ∨
        (¬ forget.Idle schema tree ∧ ∃ after, forget.apply schema tree = .ok (some after) ∧
          forget.outcome schema goneNote tree = .ok after)) := by
  have formed : Reference.new 0 schema View.node.reading goneNote.path = .ok goneNoteRef := rfl
  have condition : Reference.new 0 schema View.identifier.reading ownId.path = .ok ownIdRef := rfl
  have submitted : goneNoteRef.operation? none (some (ownIdRef, a)) .conditionalDeletion =
      some (.ok forget) := rfl
  refine ⟨soundDomains, valid, formed, condition, submitted, ?_⟩
  refine Operation.apply_submitted soundDomains valid formed ?_ submitted
  rintro _ _ ⟨⟩
  exact ⟨0, ownId.path, condition⟩

end Sample

end StateTree
