/-
Module: StateTree.Proofs.Followers
Purpose: Peers that prefer one format and bring trees that can be stored. What they run on the log
  keeps it governed: its snapshots are of one format, each made from the one before it, and the
  first of them encodes a regular tree.
-/
import StateTree.Proofs.Completion
import StateTree.Proofs.Courses
import StateTree.Proofs.NodeText

namespace StateTree

/-! ### The log of a fleet -/

/-- Whether the value that a record stores, if it stores one, is regular. -/
def RecordBody.Regular : RecordBody → Prop
  | .update change => ∀ value, change.operation.value? = some value → value.Regular
  | .barrier => True

/-- The first snapshot of a log encodes a regular tree. -/
def StateDocument.Opens (format : StateFormat) (document : StateDocument) : Prop :=
  ∃ root head, document = .ofNode root format 1 head ∧ root.Regular ∧ format.Holds root

/-- A log of which a property holds, and which peers tend that prefer one format: its snapshots are
of this format, each made from the one before it, the first is one of those that open it, and its
records are of one kind. -/
def Ledger.Tended (base : Ledger → Prop) (opens : StateDocument → Prop) (format : StateFormat)
    (kind : RecordBody → Prop) (ledger : Ledger) : Prop :=
  base ledger ∧ ledger.Begun False opens ∧ ledger.Uniform format kind

/-- What peers that prefer one format keep of the log they share. -/
def Ledger.Governed (schema : Schema) (format : StateFormat) : Ledger → Prop :=
  Ledger.Tended (Ledger.Consistent schema) (StateDocument.Opens format) format RecordBody.Regular

/-- A step brings a site that prefers the format and may open the log with its root, or a record of
the kind. -/
def FleetEvent.Adds {κ : Type} (opens : StateDocument → Prop) (format : StateFormat)
    (kind : RecordBody → Prop) : FleetEvent κ → Prop
  | .enroll _ _ settings standard => settings.preferredFormat = format ∧
      ∀ head, opens (.ofNode standard format 1 head)
  | .submit _ _ body => kind body
  | _ => True

section Tended

variable {schema : Schema} {base : Ledger → Prop} {opens : StateDocument → Prop}
  {format : StateFormat} {kind : RecordBody → Prop} {ledger : Ledger}

theorem Ledger.tended_empty (start : base .empty) :
    Ledger.empty.Tended base opens format kind :=
  ⟨start, Ledger.begun_empty, Ledger.uniform_empty⟩

theorem LogProgram.ensures_tended {α : Type} {post : Except LogError α → Ledger → Prop}
    {program : LogProgram α} (held : program.Ensures base post ledger)
    (begun : program.Ensures (Ledger.Begun False opens) (fun _ _ => True) ledger)
    (uniform : program.Ensures (Ledger.Uniform format kind) (fun _ _ => True) ledger) :
    program.Ensures (Ledger.Tended base opens format kind) post ledger :=
  held.beside ((begun.both uniform).weaken fun _ _ _ => trivial)

/-- What peers run on the log when they follow it keeps it tended, whichever property it is that
they keep besides. -/
theorem Chore.Upholds.tended
    (upholds : Chore.Upholds schema base (·.preferredFormat = format)) :
    Chore.Upholds schema (Ledger.Tended base opens format kind) (·.preferredFormat = format) where
  compacts := fun settings ledger position prefers inside =>
    LogProgram.ensures_tended (upholds.compacts settings ledger position prefers inside)
      (settings.begun_compact position) (ReplicaSettings.uniform_compact prefers position)
  catchesUp := fun settings ledger position prefers inside =>
    LogProgram.ensures_tended (upholds.catchesUp settings ledger position prefers inside)
      (settings.begun_catchUp position) (ReplicaSettings.uniform_catchUp position)

/-- So does what a step brings to the log, if it adds nothing else. -/
theorem Fleet.Brings.tended {κ : Type} {suits : ReplicaSettings → Prop} {event : FleetEvent κ}
    (brings : Brings schema base suits event) (adds : event.Adds opens format kind) :
    Brings schema (Ledger.Tended base opens format kind) (·.preferredFormat = format) event := by
  cases event with
  | enroll name identity settings standard =>
      obtain ⟨prefers, starts⟩ := adds
      refine ⟨prefers, fun ledger => LogProgram.ensures_tended (brings.2 ledger) ?_
        (ReplicaSettings.uniform_join prefers standard)⟩
      apply settings.begun_join
      intro head _
      rw [prefers]
      exact starts head
  | submit index correlation body =>
      refine fun settings ledger => LogProgram.ensures_tended (brings settings ledger) ?_ ?_
      · exact LogProgram.ensures_then (settings.begun_append False.elim correlation body)
          fun _ _ => trivial
      · exact LogProgram.ensures_then (settings.uniform_append correlation adds)
          fun _ _ => trivial
  | proceed task => trivial
  | refuse task error => trivial
  | peer index event => trivial

end Tended

variable {schema : Schema} {format : StateFormat} {ledger : Ledger}

/-- What peers run on the log when they follow it keeps it consistent. -/
theorem Chore.upholds_consistent {suits : ReplicaSettings → Prop} :
    Chore.Upholds schema (Ledger.Consistent schema) suits where
  compacts := fun settings _ _ _ inside => settings.ensures_compact inside
  catchesUp := fun settings _ _ _ inside => settings.ensures_catchUp inside

theorem Fleet.brings_consistent {κ : Type} (event : FleetEvent κ) :
    Fleet.Brings schema (Ledger.Consistent schema) (fun _ => True) event := by
  cases event with
  | enroll name identity settings standard =>
      exact ⟨trivial, fun _ => settings.ensures_join standard⟩
  | submit index correlation body =>
      exact fun settings _ =>
        LogProgram.ensures_then (settings.ensures_append correlation body) fun _ _ => trivial
  | proceed task => trivial
  | refuse task error => trivial
  | peer index event => trivial

/-! ### What a snapshot is read as -/

/-- The tree of a snapshot is complete. -/
theorem Schema.polyfill_of_tree? (distinct : schema.DistinctFields) (fit : schema.DefaultsFit)
    {document : StateDocument} {tree : Node} (read : document.tree? schema = some tree) :
    schema.polyfill tree = tree := by
  obtain ⟨raw, -, rfl⟩ := Option.map_eq_some_iff.mp read
  exact Schema.polyfill_eq_self (Schema.complete_polyfill distinct fit raw)

/-- Where snapshots read back, what a log yields at a position is the tree of this position. -/
theorem Ledger.Yields.treeAt?_eq {position : Nat} {root : Node}
    (yields : ledger.Yields schema position root) (consistent : ledger.Consistent schema)
    (distinct : schema.DistinctFields) (fit : schema.DefaultsFit)
    (reads : ∀ document ∈ ledger.documents, ∃ tree, document.tree? schema = some tree ∧
      ledger.treeAt? schema document.position = some tree) :
    ledger.treeAt? schema position = some root := by
  obtain ⟨document, stored, tree, read, early, -, rfl⟩ := yields
  obtain ⟨other, again, found⟩ := reads document stored
  cases read.symm.trans again
  rw [Schema.polyfill_of_tree? distinct fit read]
  exact consistent.treeAt?_of_le stored found early

end StateTree
