/-
Module: StateTree.Proofs.Replication
Purpose: Sites on one log agree. However the calls of their replicas, the appends, the compactions
  and the work of the sites are interleaved, a site that has applied what it got and never took a
  snapshot over as a whole has the tree that the log describes at the position of its replica.
-/
import StateTree.Proofs.Followers
import StateTree.Proofs.Published

namespace StateTree

section Agreement

variable {κ : Type} {schema : Schema} {format : StateFormat}

/-! ### What a step and a run keep -/

/-- Sites prefer one format, and the trees and values they bring can be written and read back. -/
def FleetEvent.Regular (format : StateFormat) : FleetEvent κ → Prop
  | .enroll _ _ settings standard =>
      settings.preferredFormat = format ∧ standard.Regular ∧ format.Holds standard
  | .submit _ _ body => body.Regular
  | _ => True

theorem FleetEvent.Regular.adds {event : FleetEvent κ} (regular : event.Regular format) :
    event.Adds (StateDocument.Opens format) format RecordBody.Regular := by
  cases event with
  | enroll name identity settings standard =>
      obtain ⟨prefers, regular, holds⟩ := regular
      exact ⟨prefers, fun head => ⟨standard, head, rfl, regular, holds⟩⟩
  | submit index correlation body => exact regular
  | _ => trivial

namespace Fleet

/-- What sites that prefer one format bring keeps the log governed. -/
theorem brings_governed {event : FleetEvent κ} (regular : event.Regular format) :
    Brings schema (Ledger.Governed schema format) (·.preferredFormat = format) event :=
  (brings_consistent event).tended regular.adds

/-- Every run keeps the log governed and the peers on their courses along it. -/
theorem onCourse_run (schema : Schema) {events : List (FleetEvent κ)}
    (regular : ∀ event ∈ events, event.Regular format) :
    (run schema events).OnCourse schema (Ledger.Governed schema format)
      (·.preferredFormat = format) :=
  onCourse_of_brings Chore.upholds_consistent.tended (fun _ governed => governed.1.tidy)
    (Ledger.tended_empty Ledger.consistent_empty) fun event member =>
      brings_governed (regular event member)

end Fleet

/-! ### The trees of the snapshots -/

namespace LogRecord

variable {records : List LogRecord}

/-- What each update keeps of a tree, folding in records keeps. -/
theorem foldl_keeps {kind : RecordBody → Prop} (bodies : ∀ record ∈ records, kind record.body)
    (property : Node → Prop)
    (keeps : ∀ (change : Update) (root after : Node), kind (.update change) → property root →
      change.operation.apply schema root = .ok (some after) → property after)
    {root : Node} (holds : property root) : property (records.foldl (foldInto schema) root) := by
  induction records generalizing root with
  | nil => exact holds
  | cons record rest ih =>
      obtain ⟨first, others⟩ := List.forall_mem_cons.mp bodies
      refine ih others ?_
      unfold foldInto
      cases body : record.body with
      | barrier => exact holds
      | update change =>
          rw [body] at first
          simp only [Update.foldInto]
          split
          · rename_i after applied
            exact keeps change root after first holds applied
          · exact holds

/-- Records that store regular values keep a tree regular and complete. -/
theorem foldl_spec (bodies : ∀ record ∈ records, record.body.Regular)
    (distinct : schema.DistinctFields) {root : Node} (regular : root.Regular)
    (complete : schema.Complete schema.rootType root) :
    (records.foldl (foldInto schema) root).Regular ∧
      schema.Complete schema.rootType (records.foldl (foldInto schema) root) := by
  refine foldl_keeps bodies (fun tree => tree.Regular ∧ schema.Complete schema.rootType tree) ?_
    ⟨regular, complete⟩
  rintro change root after stores ⟨regular, complete⟩ applied
  exact ⟨Operation.regular_apply stores regular applied,
    Operation.complete_apply distinct complete applied⟩

end LogRecord

namespace Ledger

variable {ledger : Ledger}

/-- The tree of every position so far may be stored in a format. -/
def Storable (schema : Schema) (format : StateFormat) (ledger : Ledger) : Prop :=
  ∀ position ≤ ledger.appended.length, ∀ tree, ledger.treeAt? schema position = some tree →
    format.Holds tree

/-- Up to a number of records, the trees of the positions can be checked one by one. -/
theorem storable_of_all (length : Nat) (same : ledger.appended.length = length)
    (flat : ∀ position < length + 1, (ledger.treeAt? schema position).all
      (fun tree => decide (format.Holds tree)) = true) :
    ledger.Storable schema format := by
  intro position inside tree found
  rw [same] at inside
  have here := flat position (Nat.lt_succ_of_le inside)
  rw [found] at here
  exact of_decide_eq_true here

/-- What each update keeps of a tree, folding in the records keeps. -/
theorem Uniform.fold_keeps {kind : RecordBody → Prop} (uniform : ledger.Uniform format kind)
    (property : Node → Prop)
    (keeps : ∀ (change : Update) (root after : Node), kind (.update change) → property root →
      change.operation.apply schema root = .ok (some after) → property after)
    (start stop : Nat) {root : Node} (holds : property root) :
    property (ledger.fold schema start stop root) :=
  LogRecord.foldl_keeps (fun record member =>
    uniform.bodies record (List.mem_of_mem_take (List.mem_of_mem_drop member))) property keeps holds

/-- Records that store regular values keep a tree regular and complete. -/
theorem Uniform.fold_spec (uniform : ledger.Uniform format RecordBody.Regular)
    (distinct : schema.DistinctFields) (start stop : Nat) {root : Node} (regular : root.Regular)
    (complete : schema.Complete schema.rootType root) :
    (ledger.fold schema start stop root).Regular ∧
      schema.Complete schema.rootType (ledger.fold schema start stop root) :=
  LogRecord.foldl_spec (fun record member =>
    uniform.bodies record (List.mem_of_mem_take (List.mem_of_mem_drop member))) distinct regular
      complete

/-- Every snapshot of a governed log reads back, as the tree that the log describes at its
position. -/
theorem Governed.reads (governed : ledger.Governed schema format)
    (distinct : schema.DistinctFields) (fit : schema.DefaultsFit)
    (defaults : schema.DefaultsRegular) (storable : ledger.Storable schema format) :
    ∀ document ∈ ledger.documents, ∃ tree, document.tree? schema = some tree ∧
      ledger.treeAt? schema document.position = some tree := by
  obtain ⟨consistent, begun, uniform⟩ := governed
  have back {document : StateDocument} {raw : Node} (member : document ∈ ledger.documents)
      (regular : raw.Regular) (holds : format.Holds raw)
      (encoded : document.bytes = document.format.encode raw) : document.node? = some raw := by
    rw [StateDocument.node?, encoded, uniform.formats document member]
    exact StateFormat.decode?_encode regular holds
  have every : ∀ document ∈ ledger.documents, ∃ raw, document.node? = some raw ∧ raw.Regular ∧
      format.Holds raw ∧ ledger.treeAt? schema document.position = some (schema.polyfill raw) := by
    refine consistent.forall_documents ?_ ?_
    · intro first head
      obtain ⟨root, position, rfl, regular, holds⟩ := begun.first first head
      have read := back (List.mem_of_head? head) regular holds rfl
      refine ⟨root, read, regular, holds, ?_⟩
      simp [treeAt?, head, StateDocument.tree?, read, fold_self]
    · rintro earlier there document member ⟨raw, read, regular, holds, found⟩ made
      rcases made.encodes with ⟨tree, completed, encoded⟩ | ⟨position, other, again, encoded⟩
      · have polyfilled : tree = schema.polyfill raw := by
          simpa [StateDocument.tree?, read] using completed.symm
        subst polyfilled
        have now := consistent.treeAt?_of_le there found made.onward
        obtain ⟨folded, complete⟩ := uniform.fold_spec distinct earlier.position document.position
          (Schema.regular_polyfill defaults regular) (Schema.complete_polyfill distinct fit raw)
        have stored := storable _ (consistent.inside document member) _ now
        refine ⟨_, back member folded stored encoded, folded, stored, ?_⟩
        rw [Schema.polyfill_eq_self complete]
        exact now
      · cases read.symm.trans again
        refine ⟨raw, back member regular holds encoded, regular, holds, ?_⟩
        rw [position]
        exact found
  intro document member
  obtain ⟨raw, read, -, -, found⟩ := every document member
  refine ⟨schema.polyfill raw, ?_, found⟩
  rw [StateDocument.tree?, read]
  rfl

end Ledger

/-! ### Agreement -/

/-- A root is what a log describes at a position: the tree of the first snapshot, completed by the
defaults, with the records from its position up to this one folded in. -/
def Ledger.Describes (schema : Schema) (ledger : Ledger) (position : Nat) (root : Node) : Prop :=
  ∃ first tree, ledger.documents.head? = some first ∧ first.tree? schema = some tree ∧
    first.position ≤ position ∧ position ≤ ledger.appended.length ∧
      root = ledger.fold schema first.position position tree

/-- What a governed log yields at a position is what it describes there. -/
theorem Ledger.Yields.describes {ledger : Ledger} {position : Nat} {root : Node}
    (yields : ledger.Yields schema position root) (governed : ledger.Governed schema format)
    (distinct : schema.DistinctFields) (fit : schema.DefaultsFit)
    (defaults : schema.DefaultsRegular) (storable : ledger.Storable schema format) :
    ledger.Describes schema position root := by
  have now := yields.treeAt?_eq governed.1 distinct fit
    (governed.reads distinct fit defaults storable)
  obtain ⟨document, stored, -, -, early, inside, -⟩ := yields
  obtain ⟨first, head, now⟩ := Option.bind_eq_some_iff.mp now
  obtain ⟨tree, read, folded⟩ := Option.map_eq_some_iff.mp now
  have before := Nat.le_trans (governed.1.early head document stored) early
  exact ⟨first, tree, head, read, before, inside, folded.symm⟩

namespace Peer

/-- Whether the site is at work, has applied what it got, and has never taken a snapshot over. -/
def isSettled (peer : Peer κ) : Bool :=
  peer.isOpen && !peer.hasReloaded && peer.workplace.isIdle

/-- What the root of a peer on its course comes to be is what the log describes at the position up
to which the site has got the records. -/
theorem OnCourse.describes {ledger : Ledger} {peer : Peer κ} {kind : ReplicaSettings → Prop}
    (course : peer.OnCourse schema (Ledger.Governed schema format) kind ledger)
    (governed : ledger.Governed schema format) (distinct : schema.DistinctFields)
    (fit : schema.DefaultsFit) (defaults : schema.DefaultsRegular)
    (storable : ledger.Storable schema format) (joined : peer.errand.isJoining = false)
    (kept : peer.hasReloaded = false) :
    ledger.Describes schema peer.reached (peer.workplace.destined (peer.origin schema)) :=
  (course.yields joined kept).describes governed distinct fit defaults storable

theorem origin_of_isSettled {peer : Peer κ} (settled : peer.isSettled = true) :
    peer.errand.isJoining = false ∧ peer.hasReloaded = false ∧
      peer.workplace.destined (peer.origin schema) = peer.workplace.site.root := by
  simp only [isSettled, isOpen, Bool.and_eq_true, Bool.not_eq_eq_eq_not, Bool.not_true,
    Option.isNone_iff_eq_none] at settled
  obtain ⟨⟨⟨joined, started⟩, kept⟩, idle⟩ := settled
  refine ⟨joined, kept, ?_⟩
  rw [Workplace.destined, Workplace.owed_of_isIdle idle, origin, started]
  rfl

end Peer

theorem Ledger.Describes.unique {ledger : Ledger} {position : Nat} {root other : Node}
    (describes : ledger.Describes schema position root)
    (describes' : ledger.Describes schema position other) : root = other := by
  obtain ⟨first, tree, head, read, -, -, rfl⟩ := describes
  obtain ⟨again, same, head', read', -, -, rfl⟩ := describes'
  cases head.symm.trans head'
  cases read.symm.trans read'
  rfl

namespace Fleet

/-- Replicas on one log agree. Let any number of sites of one schema share a log, let their replicas
prefer one format, and let what they bring and what comes of it be trees that can be stored. In
whatever order they join, submit, follow the log and compact, a site that is settled has the root
that the log describes at the position of its replica; and two of them at one position have the same
root. While a replica applies a record, and holds the lock for that, its site is one record ahead of
its position. -/
theorem replicas_agree {builder : SchemaBuilder} (built : builder.build = .ok schema)
    (distinct : schema.DistinctFields) (defaults : schema.DefaultsRegular)
    {events : List (FleetEvent κ)} (regular : ∀ event ∈ events, event.Regular format)
    (storable : (run schema events).pool.ledger.Storable schema format) :
    (∀ peer ∈ (run schema events).peers, peer.isSettled = true →
        (run schema events).pool.ledger.Describes schema
          (peer.replica.position + peer.errand.inHand) peer.workplace.site.root) ∧
      ∀ peer ∈ (run schema events).peers, ∀ other ∈ (run schema events).peers,
        peer.isSettled = true → other.isSettled = true →
          peer.replica.position + peer.errand.inHand =
              other.replica.position + other.errand.inHand →
            peer.workplace.site.root = other.workplace.site.root := by
  have fit := Schema.defaultsFit_of_build built
  have course := onCourse_run schema regular
  have describes {peer : Peer κ} (member : peer ∈ (run schema events).peers)
      (settled : peer.isSettled = true) :
      (run schema events).pool.ledger.Describes schema peer.reached
        peer.workplace.site.root := by
    obtain ⟨joined, kept, same⟩ := Peer.origin_of_isSettled settled
    rw [← same]
    exact (course.peers peer member).describes course.pool.holds distinct fit defaults storable
      joined kept
  constructor
  · exact fun peer member settled => describes member settled
  · intro peer member other member' settled settled' together
    have there := describes member' settled'
    rw [← show peer.reached = other.reached from together] at there
    exact (describes member settled).unique there

end Fleet

end Agreement

/-! ### In the sample -/

namespace Sample

/-- A replica that stores a snapshot after each record. -/
def swift : ReplicaSettings := { ReplicaSettings.standard with compactionInterval := 1 }

theorem built : (((SchemaBuilder.new "Root").define root).define target).build = .ok schema :=
  eq_ok_of_toOption (by decide +kernel)

theorem regular_tree : tree.Regular := by
  refine .struct (by decide) ?_
  simp only [List.forall_mem_cons, List.not_mem_nil, false_implies, implies_true, and_true]
  refine ⟨.listing (by decide) (by decide), ?_, ?_, .str _⟩
  · refine .sideTable (by decide) (by decide) ?_
    simp only [List.forall_mem_cons, List.not_mem_nil, false_implies, implies_true, and_true]
    exact ⟨.str _, .str _⟩
  · refine .catalog (by decide) ?_
    simp only [List.forall_mem_cons, List.not_mem_nil, false_implies, implies_true, and_true]
    refine .struct (by decide) ?_
    simp only [List.forall_mem_cons, List.not_mem_nil, false_implies, implies_true, and_true]
    exact .id _

theorem defaultsRegular : schema.DefaultsRegular := by
  intro entry member field declared value presence
  simp only [schema, List.mem_cons, List.not_mem_nil, or_false] at member
  rcases member with rfl | rfl
  · simp only [root, List.mem_cons, List.not_mem_nil, or_false] at declared
    rcases declared with rfl | rfl | rfl | rfl <;> cases presence
    exact .str _
  · simp only [target, List.mem_cons, List.not_mem_nil, or_false] at declared
    rcases declared with rfl | rfl <;> cases presence

/-- A site joins, replaces its title, applies that and compacts; another one joins then. -/
def latecomer : List (FleetEvent Unit) :=
  [.enroll "first" a swift tree, .peer 0 .call, .peer 0 .call, .peer 0 .call, .peer 0 .call,
    .peer 0 (.act 0), .peer 0 .launch,
    .submit 0 (Uuid.ofNat 0) entitle, .proceed 0,
    .peer 0 (.act 1), .peer 0 .call, .peer 0 (.act 1), .peer 0 (.act 1), .peer 0 .work,
    .peer 0 .work, .peer 0 (.act 1), .peer 0 (.act 1), .peer 0 .call, .peer 0 .call, .peer 0 .call,
    .peer 0 .call, .peer 0 (.act 1),
    .enroll "second" b swift tree, .peer 1 .call, .peer 1 .call, .peer 1 (.act 2),
    .peer 1 .launch]

theorem regular_latecomer : ∀ event ∈ latecomer, event.Regular .json := by
  have holds : StateFormat.json.Holds tree := by decide +kernel
  intro event member
  cases event with
  | enroll name identity settings standard =>
      simp only [latecomer, List.mem_cons, FleetEvent.enroll.injEq, reduceCtorEq, false_or,
        List.not_mem_nil, or_false] at member
      rcases member with ⟨-, -, rfl, rfl⟩ | ⟨-, -, rfl, rfl⟩ <;> exact ⟨rfl, regular_tree, holds⟩
  | submit index correlation body =>
      simp only [latecomer, List.mem_cons, FleetEvent.submit.injEq, reduceCtorEq, false_or,
        List.not_mem_nil, or_false] at member
      obtain ⟨-, -, rfl⟩ := member
      rintro value ⟨⟩
      exact .str _
  | _ => trivial

theorem storable_latecomer : (Fleet.run schema latecomer).pool.ledger.Storable schema .json :=
  Ledger.storable_of_all 1 (by decide +kernel) (by decide +kernel)

/-- The one that joins late starts from the snapshot of position one, the first one from that of
position zero; both are settled, and have the same root. -/
theorem latecomer_agrees :
    ((Fleet.run schema latecomer).peers.map fun peer =>
        (peer.isSettled, peer.replica.position + peer.errand.inHand)) = [(true, 1), (true, 1)] ∧
      ∀ peer ∈ (Fleet.run schema latecomer).peers, ∀ other ∈ (Fleet.run schema latecomer).peers,
        peer.workplace.site.root = other.workplace.site.root := by
  have states : ((Fleet.run schema latecomer).peers.map fun peer =>
      (peer.isSettled, peer.replica.position + peer.errand.inHand)) = [(true, 1), (true, 1)] := by
    decide +kernel
  have state {peer : Peer Unit} (member : peer ∈ (Fleet.run schema latecomer).peers) :
      peer.isSettled = true ∧ peer.replica.position + peer.errand.inHand = 1 := by
    have here := List.mem_map_of_mem (f := fun peer : Peer Unit =>
      (peer.isSettled, peer.replica.position + peer.errand.inHand)) member
    rw [states] at here
    simpa using here
  have agree := (Fleet.replicas_agree built distinctFields defaultsRegular regular_latecomer
    storable_latecomer).2
  refine ⟨states, fun peer member other member' => ?_⟩
  exact agree peer member other member' (state member).1 (state member').1
    ((state member).2.trans (state member').2.symm)

end Sample

end StateTree
