/-
Module: StateTree.Proofs.Documents
Purpose: What the snapshots of a log say. Each of them is of a position, and its tree should be what
  the records before that position make of the first one. Snapshots are read in one call and written
  in a later one; the ledger keeps which were stored, and with that from which each could come.
-/
import StateTree.Proofs.Programs
import Mathlib.Data.List.Induction

namespace StateTree

/-- The tree of a snapshot as every reader takes it, completed by the schema's defaults. -/
def StateDocument.tree? (schema : Schema) (document : StateDocument) : Option Node :=
  document.node?.map schema.polyfill

namespace Ledger

variable {schema : Schema} {ledger before after : Ledger}

/-- The records between two positions. -/
def between (ledger : Ledger) (start stop : Nat) : List LogRecord :=
  (ledger.appended.take stop).drop start

/-- A tree of one position with the records up to another one folded in. -/
def fold (schema : Schema) (ledger : Ledger) (start stop : Nat) (root : Node) : Node :=
  (ledger.between start stop).foldl (LogRecord.foldInto schema) root

/-- The tree of the first snapshot with the records between its position and another one folded
in. -/
def treeAt? (schema : Schema) (ledger : Ledger) (position : Nat) : Option Node :=
  ledger.documents.head?.bind fun first =>
    (first.tree? schema).map (ledger.fold schema first.position position)

/-- No snapshot has taken the place of one of a later position. -/
def InOrder (ledger : Ledger) : Prop :=
  ledger.documents.Pairwise fun earlier later => earlier.position ≤ later.position

/-- Every snapshot was made from the one it has taken the place of: the revisions count up. -/
def InTurn (ledger : Ledger) : Prop :=
  ledger.documents.map StateDocument.revision = List.range' 1 ledger.documents.length

/-- Every snapshot reads back as what was encoded in it. -/
structure Faithful (schema : Schema) (ledger : Ledger) : Prop where
  first : ∀ first, ledger.documents.head? = some first → (first.tree? schema).isSome = true
  /-- One that encodes the tree of its position reads back as that tree. -/
  folded : ∀ document ∈ ledger.documents, ∀ tree,
    ledger.treeAt? schema document.position = some tree →
      document.bytes = document.format.encode tree → document.tree? schema = some tree
  /-- One that encodes what was read from another one of its position reads back as that. -/
  converted : ∀ earlier ∈ ledger.documents, ∀ document ∈ ledger.documents, ∀ raw,
    document.position = earlier.position → earlier.node? = some raw →
      document.bytes = document.format.encode raw →
        document.tree? schema = some (schema.polyfill raw)

/-- The stored snapshot and the retained records say all that the log was ever given. -/
structure Sound (schema : Schema) (ledger : Ledger) : Prop where
  /-- Nothing was appended before the first snapshot. -/
  whole : ∀ first, ledger.documents.head? = some first → first.position = 0
  /-- The position of the snapshot has never moved back. -/
  inOrder : ledger.InOrder
  /-- The position of the snapshot lies between the first retained record and the head. -/
  within : ∀ document, ledger.log.state = some document →
    ledger.log.first ≤ document.position ∧ document.position ≤ ledger.log.head
  /-- The tree of the snapshot is the fold of all earlier records, and with the later ones, which
  are all retained, it gives the fold of all records. -/
  determines : ∀ document, ledger.log.state = some document → ∃ tree,
    document.tree? schema = some tree ∧ ledger.treeAt? schema document.position = some tree ∧
      some ((ledger.log.since document.position).foldl (LogRecord.foldInto schema) tree) =
        ledger.treeAt? schema ledger.appended.length

/-! ### Positions in the records -/

@[simp] theorem between_self (ledger : Ledger) (position : Nat) :
    ledger.between position position = [] := by
  apply List.drop_eq_nil_of_le
  exact List.length_take_le _ _

theorem between_append {start middle stop : Nat} (early : start ≤ middle) (late : middle ≤ stop) :
    ledger.between start middle ++ ledger.between middle stop = ledger.between start stop := by
  have front : (ledger.appended.take stop).take middle = ledger.appended.take middle := by
    rw [List.take_take, Nat.min_eq_left late]
  unfold between
  by_cases inside : start ≤ (ledger.appended.take middle).length
  · rw [← List.drop_append_of_le_length inside]
    congr 1
    rw [← front, List.take_append_drop]
  · have short : ledger.appended.length < start := by
      rw [List.length_take] at inside
      omega
    have none (first last : Nat) (beyond : start ≤ first) :
        (ledger.appended.take last).drop first = [] := by
      apply List.drop_eq_nil_of_le
      rw [List.length_take]
      omega
    rw [none start middle (Nat.le_refl _), none middle stop early, none start stop (Nat.le_refl _)]
    rfl

theorem Grows.between_eq (grows : before.Grows after) (start : Nat) {stop : Nat}
    (inside : stop ≤ before.appended.length) :
    after.between start stop = before.between start stop := by
  obtain ⟨more, appended⟩ := grows.appended
  unfold between
  rw [← appended, List.take_append_of_le_length inside]

theorem between_length (ledger : Ledger) (position : Nat) :
    ledger.between position ledger.appended.length = ledger.appended.drop position := by
  rw [between, List.take_length]

/-- Records are numbered from zero on. -/
theorem Tidy.number_lt (tidy : ledger.Tidy) {position : Nat} {record : LogRecord}
    (member : record ∈ ledger.appended.take position) : record.number < position := by
  have number := List.mem_map_of_mem (f := LogRecord.number) member
  rw [List.map_take, tidy.numbered, List.take_range, List.mem_range] at number
  omega

theorem Tidy.le_number (tidy : ledger.Tidy) {position : Nat} {record : LogRecord}
    (member : record ∈ ledger.appended.drop position) : position ≤ record.number := by
  have number := List.mem_map_of_mem (f := LogRecord.number) member
  rw [List.map_drop, tidy.numbered, List.range_eq_range', List.drop_range',
    List.mem_range'_1] at number
  omega

/-- Records are numbered by their positions. -/
theorem Tidy.number_eq (tidy : ledger.Tidy) {position : Nat} {record : LogRecord}
    (found : ledger.appended[position]? = some record) : record.number = position := by
  have number := congrArg (fun numbers : List Nat => numbers[position]?) tidy.numbered
  rw [List.getElem?_map, found] at number
  have inside : position < ledger.appended.length := (List.getElem?_eq_some_iff.mp found).1
  rw [List.getElem?_range inside] at number
  exact Option.some.inj number

theorem between_succ {position : Nat} {record : LogRecord}
    (found : ledger.appended[position]? = some record) :
    ledger.between position (position + 1) = [record] := by
  obtain ⟨inside, -⟩ := List.getElem?_eq_some_iff.mp found
  have early : (ledger.appended.take position).length = position := by
    rw [List.length_take, Nat.min_eq_left (Nat.le_of_lt inside)]
  rw [between, List.take_add_one, found]
  exact List.drop_left' early

/-- The records between two positions begin with the one at the first position. -/
theorem between_cons {position stop : Nat} {record : LogRecord} {rest : List LogRecord}
    (split : ledger.between position stop = record :: rest) :
    ledger.appended[position]? = some record ∧ position < stop ∧
      ledger.between (position + 1) stop = rest := by
  have found : (ledger.appended.take stop)[position]? = some record := by
    rw [← List.head?_drop]
    unfold between at split
    rw [split]
    rfl
  have inside : position < (ledger.appended.take stop).length :=
    (List.getElem?_eq_some_iff.mp found).1
  have early : position < stop := by
    rw [List.length_take] at inside
    exact (Nat.lt_min.mp inside).1
  rw [List.getElem?_take_of_lt early] at found
  have joined : ledger.between position (position + 1) ++ ledger.between (position + 1) stop =
      ledger.between position stop := between_append (Nat.le_succ position) early
  refine ⟨found, early, ?_⟩
  rw [between_succ found, split] at joined
  exact (List.cons.inj joined).2

/-- The records of numbers below one position among those from another one on. -/
theorem Tidy.filter_drop (tidy : ledger.Tidy) (upTo position : Nat) :
    (ledger.appended.drop position).filter (fun record => record.number < upTo) =
      ledger.between position upTo := by
  have split : ledger.appended.drop position =
      ledger.between position upTo ++
        (ledger.appended.drop upTo).drop (position - (ledger.appended.take upTo).length) := by
    unfold between
    rw [← List.drop_append, List.take_append_drop]
  rw [split, List.filter_append, List.filter_eq_self.mpr, List.filter_eq_nil_iff.mpr,
    List.append_nil]
  · intro record member
    simpa using tidy.le_number (List.mem_of_mem_drop member)
  · intro record member
    simpa using tidy.number_lt (List.mem_of_mem_drop member)

theorem fold_self (position : Nat) (root : Node) :
    ledger.fold schema position position root = root := by
  simp [fold]

theorem fold_fold {start middle stop : Nat} (early : start ≤ middle) (late : middle ≤ stop)
    (root : Node) :
    ledger.fold schema middle stop (ledger.fold schema start middle root) =
      ledger.fold schema start stop root := by
  unfold fold
  rw [← List.foldl_append, between_append early late]

theorem Grows.fold_eq (grows : before.Grows after) (start : Nat) {stop : Nat}
    (inside : stop ≤ before.appended.length) (root : Node) :
    after.fold schema start stop root = before.fold schema start stop root := by
  unfold fold
  rw [grows.between_eq start inside]

/-- The tree of a position does not change once its records are appended. -/
theorem Grows.treeAt?_eq (grows : before.Grows after) (stored : before.documents ≠ [])
    {position : Nat} (inside : position ≤ before.appended.length) :
    after.treeAt? schema position = before.treeAt? schema position := by
  obtain ⟨later, documents⟩ := grows.documents
  obtain ⟨first, rest, same⟩ := List.exists_cons_of_ne_nil stored
  have head : after.documents.head? = some first := by
    rw [← documents, same]
    rfl
  unfold treeAt?
  rw [head, same]
  simp only [List.head?_cons, Option.bind_some]
  congr 1
  funext root
  exact grows.fold_eq first.position inside root

/-! ### The invariant -/

/-- A snapshot is made from an earlier one: it has the next revision, and it encodes the tree of
that one with later records folded in, or, in another format, what that one encodes. -/
structure MadeFrom (schema : Schema) (ledger : Ledger) (earlier document : StateDocument) :
    Prop where
  revision : document.revision = earlier.revision + 1
  onward : earlier.position ≤ document.position
  encodes : (∃ tree, earlier.tree? schema = some tree ∧ document.bytes =
      document.format.encode (ledger.fold schema earlier.position document.position tree)) ∨
    (document.position = earlier.position ∧ ∃ raw, earlier.node? = some raw ∧
      document.bytes = document.format.encode raw)

/-- What holds of every ledger that replicas have written. -/
structure Consistent (schema : Schema) (ledger : Ledger) : Prop where
  tidy : ledger.Tidy
  /-- Nothing is dropped before a snapshot is stored. -/
  origin : ledger.documents = [] → ledger.log.first = 0
  inside : ∀ document ∈ ledger.documents, document.position ≤ ledger.appended.length
  /-- Each snapshot but the first was made from one before it, not always from the last. -/
  lineage : ∀ front document back, ledger.documents = front ++ document :: back → front ≠ [] →
    ∃ earlier ∈ front, MadeFrom schema ledger earlier document
  covered : ledger.InOrder → ∀ document, ledger.log.state = some document →
    ledger.log.first ≤ document.position

theorem consistent_empty : empty.Consistent schema where
  tidy := tidy_empty
  origin := fun _ => rfl
  inside := fun document member => by cases member
  lineage := fun front document back split => by simp [empty] at split
  covered := fun _ document none => by cases none

theorem MadeFrom.of_grows {earlier document : StateDocument}
    (made : MadeFrom schema before earlier document) (grows : before.Grows after)
    (inside : document.position ≤ before.appended.length) :
    MadeFrom schema after earlier document := by
  refine ⟨made.revision, made.onward, ?_⟩
  rcases made.encodes with ⟨tree, read, encoded⟩ | converted
  · left
    refine ⟨tree, read, ?_⟩
    rw [grows.fold_eq earlier.position inside]
    exact encoded
  · exact Or.inr converted

theorem InOrder.of_grows (inOrder : after.InOrder) (grows : before.Grows after) :
    before.InOrder :=
  List.Pairwise.sublist grows.documents.sublist inOrder

/-- What the first snapshot has, and each gets from an earlier one, all have. -/
theorem Consistent.forall_documents (consistent : ledger.Consistent schema)
    {property : StateDocument → Prop}
    (first : ∀ first, ledger.documents.head? = some first → property first)
    (next : ∀ earlier ∈ ledger.documents, ∀ document ∈ ledger.documents, property earlier →
      MadeFrom schema ledger earlier document → property document) :
    ∀ document ∈ ledger.documents, property document := by
  suffices every : ∀ front, front <+: ledger.documents → ∀ document ∈ front, property document from
    every _ List.prefix_rfl
  intro front early
  induction front using List.reverseRecOn with
  | nil => simp
  | append_singleton init last ih =>
      obtain ⟨back, split⟩ := early
      have before := ih ((List.prefix_append init [last]).trans ⟨back, split⟩)
      intro document member
      rcases List.mem_append.mp member with there | same
      · exact before document there
      · rw [List.mem_singleton.mp same]
        rw [List.append_assoc, List.singleton_append] at split
        by_cases alone : init = []
        · apply first
          simp [← split, alone]
        · obtain ⟨earlier, there, made⟩ := consistent.lineage init last back split.symm alone
          refine next earlier ?_ last ?_ (before earlier there) made
          · simp [← split, there]
          · simp [← split]

/-- The first snapshot is of the earliest position. -/
theorem Consistent.early (consistent : ledger.Consistent schema) {first : StateDocument}
    (head : ledger.documents.head? = some first) :
    ∀ document ∈ ledger.documents, first.position ≤ document.position := by
  refine consistent.forall_documents ?_ ?_
  · intro other found
    cases head.symm.trans found
    exact Nat.le_refl _
  · intro earlier there document member before made
    exact Nat.le_trans before made.onward

/-- The tree of a position is the tree of a snapshot with the records between folded in. -/
theorem Consistent.treeAt?_of_le (consistent : ledger.Consistent schema) {document : StateDocument}
    (member : document ∈ ledger.documents) {tree : Node}
    (found : ledger.treeAt? schema document.position = some tree) {position : Nat}
    (early : document.position ≤ position) :
    ledger.treeAt? schema position = some (ledger.fold schema document.position position tree) := by
  obtain ⟨first, head, found⟩ := Option.bind_eq_some_iff.mp found
  obtain ⟨root, read, rfl⟩ := Option.map_eq_some_iff.mp found
  rw [fold_fold (consistent.early head document member) early]
  simp [treeAt?, head, read]

/-- Where snapshots read back, each of them has the tree of its position. -/
theorem Consistent.reads (consistent : ledger.Consistent schema)
    (faithful : ledger.Faithful schema) :
    ∀ document ∈ ledger.documents, ∃ tree,
      document.tree? schema = some tree ∧ ledger.treeAt? schema document.position = some tree := by
  refine consistent.forall_documents ?_ ?_
  · intro first head
    obtain ⟨tree, read⟩ := Option.isSome_iff_exists.mp (faithful.first first head)
    refine ⟨tree, read, ?_⟩
    simp [treeAt?, head, read, fold_self]
  · rintro earlier there document member ⟨tree, read, found⟩ made
    rcases made.encodes with ⟨other, same, encoded⟩ | ⟨position, raw, node, encoded⟩
    · cases read.symm.trans same
      have now := consistent.treeAt?_of_le there found made.onward
      exact ⟨_, faithful.folded document member _ now encoded, now⟩
    · have back := faithful.converted earlier there document member raw position node encoded
      have same : tree = schema.polyfill raw := by
        simpa [StateDocument.tree?, node] using read.symm
      refine ⟨tree, back.trans (congrArg some same.symm), ?_⟩
      rw [position]
      exact found

/-- Where positions do not decrease, none is beyond the last. -/
theorem position_le_of_pairwise {documents : List StateDocument} {document last : StateDocument}
    (ordered : documents.Pairwise fun earlier later => earlier.position ≤ later.position)
    (member : document ∈ documents) (final : documents.getLast? = some last) :
    document.position ≤ last.position := by
  obtain ⟨front, rfl⟩ := List.getLast?_eq_some_iff.mp final
  rcases List.mem_append.mp member with early | same
  · exact (List.pairwise_append.mp ordered).2.2 _ early _ (List.mem_singleton_self last)
  · exact Nat.le_of_eq (congrArg StateDocument.position (List.mem_singleton.mp same))

/-- Where revisions count up, the one of the highest revision is the last. -/
theorem getLast?_of_revision {documents : List StateDocument} {document : StateDocument}
    (counted : documents.map StateDocument.revision = List.range' 1 documents.length)
    (member : document ∈ documents) (highest : document.revision = documents.length) :
    documents.getLast? = some document := by
  rcases List.eq_nil_or_concat documents with rfl | ⟨init, last, rfl⟩
  · cases member
  · simp only [List.concat_eq_append, List.map_append, List.map_cons, List.map_nil,
      List.length_append, List.length_singleton, List.range'_1_concat] at counted member highest ⊢
    obtain ⟨before, -⟩ := List.append_inj counted (by simp)
    rcases List.mem_append.mp member with early | same
    · have number := List.mem_map_of_mem (f := StateDocument.revision) early
      rw [before, List.mem_range'_1] at number
      omega
    · rw [List.mem_singleton.mp same]
      simp

/-- Snapshots that read back did so before, too. -/
theorem Faithful.of_grows (faithful : after.Faithful schema) (grows : before.Grows after)
    (inside : ∀ document ∈ before.documents, document.position ≤ before.appended.length) :
    before.Faithful schema := by
  have kept := grows.documents.subset
  refine ⟨?_, ?_, ?_⟩
  · intro first found
    apply faithful.first
    obtain ⟨later, documents⟩ := grows.documents
    rw [← documents, List.head?_append, found]
    rfl
  · intro document member tree found encodes
    rw [← grows.treeAt?_eq (List.ne_nil_of_mem member) (inside document member)] at found
    exact faithful.folded document (kept member) tree found encodes
  · intro earlier there document member
    exact faithful.converted earlier (kept there) document (kept member)

/-- Revisions that count up name the snapshot that each was made from: the one before it. -/
theorem Consistent.inOrder_of_inTurn (consistent : ledger.Consistent schema)
    (inTurn : ledger.InTurn) : ledger.InOrder := by
  have lineage := consistent.lineage
  unfold InTurn at inTurn
  unfold InOrder
  generalize ledger.documents = documents at lineage inTurn
  clear consistent
  induction documents using List.reverseRecOn with
  | nil => exact List.Pairwise.nil
  | append_singleton init last ih =>
      simp only [List.map_append, List.map_cons, List.map_nil, List.length_append,
        List.length_singleton, List.range'_1_concat] at inTurn
      obtain ⟨counted, same⟩ := List.append_inj inTurn (by simp)
      have revision : last.revision = 1 + init.length := by simpa using same
      have before := ih (fun front document back split =>
        lineage front document (back ++ [last]) (by simp [split])) counted
      refine List.pairwise_append.mpr ⟨before, List.pairwise_singleton _ _, ?_⟩
      intro document member final only
      rw [List.mem_singleton.mp only]
      obtain ⟨earlier, there, made⟩ := lineage init last [] rfl (List.ne_nil_of_mem member)
      have next := made.revision
      have latest := getLast?_of_revision counted there (by omega)
      exact Nat.le_trans (position_le_of_pairwise before member latest) made.onward

/-! ### Calls -/

/-- What is neither appended, stored nor dropped changes nothing. -/
theorem Consistent.of_same (consistent : before.Consistent schema) (tidy : after.Tidy)
    (appended : after.appended = before.appended) (documents : after.documents = before.documents)
    (first : after.log.first = before.log.first) : after.Consistent schema := by
  have state : after.log.state = before.log.state := by
    rw [tidy.latest, consistent.tidy.latest, documents]
  have grows : before.Grows after :=
    ⟨appended ▸ List.prefix_rfl, documents ▸ List.prefix_rfl, Nat.le_of_eq first.symm⟩
  refine ⟨tidy, ?_, ?_, ?_, ?_⟩
  · rw [documents, first]
    exact consistent.origin
  · rw [documents, appended]
    exact consistent.inside
  · intro front document back split joined
    rw [documents] at split
    obtain ⟨earlier, there, made⟩ := consistent.lineage front document back split joined
    exact ⟨earlier, there, made.of_grows grows (consistent.inside document (by simp [split]))⟩
  · intro inOrder document stored
    rw [first]
    exact consistent.covered (inOrder.of_grows grows) document (state ▸ stored)

/-- Records may be appended at any time. -/
theorem Consistent.append (consistent : ledger.Consistent schema) (correlation : Uuid)
    (body : RecordBody) : (ledger.answer (.append correlation body)).2.Consistent schema := by
  have grows := ledger.grows_answer (.append correlation body)
  have tidy := consistent.tidy.answer (.append correlation body)
  have documents : (ledger.answer (.append correlation body)).2.documents = ledger.documents :=
    List.append_nil _
  refine ⟨tidy, ?_, ?_, ?_, ?_⟩
  · rw [documents]
    exact consistent.origin
  · intro document member
    exact Nat.le_trans (consistent.inside document (documents ▸ member)) grows.appended.length_le
  · intro front document back split joined
    rw [documents] at split
    obtain ⟨earlier, there, made⟩ := consistent.lineage front document back split joined
    exact ⟨earlier, there, made.of_grows grows (consistent.inside document (by simp [split]))⟩
  · intro inOrder document stored
    exact consistent.covered (inOrder.of_grows grows) document stored

/-- Records may be dropped up to the position of a snapshot. -/
theorem Consistent.discard (consistent : ledger.Consistent schema) {document : StateDocument}
    (member : document ∈ ledger.documents) {position : Nat} (early : position ≤ document.position) :
    (ledger.answer (.discardBefore position)).2.Consistent schema := by
  have grows := ledger.grows_answer (.discardBefore position)
  have tidy := consistent.tidy.answer (.discardBefore position)
  have appended : (ledger.answer (.discardBefore position)).2.appended = ledger.appended :=
    List.append_nil _
  have documents : (ledger.answer (.discardBefore position)).2.documents = ledger.documents :=
    List.append_nil _
  refine ⟨tidy, ?_, ?_, ?_, ?_⟩
  · intro none
    rw [documents] at none
    rw [none] at member
    cases member
  · rw [documents, appended]
    exact consistent.inside
  · intro front other back split joined
    rw [documents] at split
    obtain ⟨earlier, there, made⟩ := consistent.lineage front other back split joined
    exact ⟨earlier, there, made.of_grows grows (consistent.inside other (by simp [split]))⟩
  · intro inOrder stored last
    have latest := tidy.latest.symm.trans last
    rw [documents] at latest
    have ordered : ledger.InOrder := by simpa [InOrder, documents] using inOrder
    have covered := consistent.covered ordered stored (consistent.tidy.latest.trans latest)
    have bound := position_le_of_pairwise ordered member latest
    have kept : (ledger.answer (.discardBefore position)).2.log.first =
        max ledger.log.first (min position ledger.log.head) := rfl
    omega

/-- A snapshot may be stored if it is the first one, or if it was made from an earlier one. -/
theorem Consistent.store (consistent : before.Consistent schema) {document : StateDocument}
    (tidy : after.Tidy) (appended : after.appended = before.appended)
    (documents : after.documents = before.documents ++ [document])
    (first : after.log.first = before.log.first)
    (inside : document.position ≤ before.appended.length)
    (made : before.documents ≠ [] → ∃ earlier ∈ before.documents,
      MadeFrom schema before earlier document) : after.Consistent schema := by
  have grows : before.Grows after :=
    ⟨appended ▸ List.prefix_rfl, documents ▸ List.prefix_append _ _, Nat.le_of_eq first.symm⟩
  have state : after.log.state = some document := by
    rw [tidy.latest, documents]
    simp
  refine ⟨tidy, ?_, ?_, ?_, ?_⟩
  · intro none
    simp [documents] at none
  · intro other member
    rw [documents] at member
    rw [appended]
    rcases List.mem_append.mp member with early | same
    · exact consistent.inside other early
    · rw [List.mem_singleton.mp same]
      exact inside
  · intro front other back split joined
    rw [documents] at split
    rcases List.eq_nil_or_concat back with rfl | ⟨more, last, rfl⟩
    · obtain ⟨rfl, same⟩ := List.append_inj' split rfl
      cases same
      obtain ⟨earlier, there, made⟩ := made joined
      exact ⟨earlier, there, made.of_grows grows inside⟩
    · have shorter : before.documents = front ++ other :: more := by
        rw [List.concat_eq_append, ← List.cons_append, ← List.append_assoc] at split
        exact (List.append_inj' split rfl).1
      obtain ⟨earlier, there, made⟩ := consistent.lineage front other more shorter joined
      exact ⟨earlier, there, made.of_grows grows (consistent.inside other (by simp [shorter]))⟩
  · intro inOrder stored found
    cases state.symm.trans found
    rw [first]
    cases last : before.documents.getLast? with
    | none =>
        have nothing := consistent.origin (List.getLast?_eq_none_iff.mp last)
        omega
    | some latest =>
        have covered := consistent.covered (inOrder.of_grows grows) latest
          (consistent.tidy.latest.trans last)
        have member : latest ∈ after.documents := by
          rw [documents]
          exact List.mem_append_left _ (List.mem_of_getLast? last)
        have bound := position_le_of_pairwise inOrder member (tidy.latest.symm.trans state)
        omega

end Ledger

end StateTree
