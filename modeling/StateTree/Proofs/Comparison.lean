/-
Module: StateTree.Proofs.Comparison
Purpose: What a comparison of two trees reports. It finds no difference exactly between equal trees.
  What it finds is true of both trees at the paths it names, and of the children that differ it
  leaves out none before it has shown as many as it may.
-/
import StateTree.Difference
import StateTree.Proofs.Polyfilling
import Mathlib.Data.List.Forall2

namespace StateTree

theorem Keyed.lookup_of_mem {κ α : Type} [BEq κ] [LawfulBEq κ] {entries : List (κ × α)}
    (distinct : Distinct entries) {entry : κ × α} (member : entry ∈ entries) :
    entries.lookup entry.1 = some entry.2 := by
  induction entries with
  | nil => cases member
  | cons first rest ih =>
      obtain ⟨new, others⟩ := List.nodup_cons.mp distinct
      rcases List.mem_cons.mp member with rfl | later
      · exact List.lookup_cons_self
      · have different : entry.1 ≠ first.1 := fun same =>
          new (same ▸ List.mem_map_of_mem later)
        rw [List.lookup_cons, beq_false_of_ne different]
        exact ih others later

/-! ### What stands at a path -/

namespace Node

/-- What a struct, a catalog or a side table holds under a segment: the field of the name, or the
entry of the identifier with this text. -/
def under? : Node → Segment → Option Node
  | .struct fields, .name text => fields.get? text
  | .catalog entities, .name text => (Identifier.ofString? text).bind entities.get?
  | .sideTable table, .name text => (Identifier.ofString? text).bind table.get?
  | _, _ => none

/-- What segments lead to from a node, one after the other. -/
def along? : Node → List Segment → Option Node
  | node, [] => some node
  | node, segment :: rest => (node.under? segment).bind fun child => child.along? rest

/-- What stands at a path in a tree. -/
def at? (root : Node) (path : Path) : Option Node := root.along? path.segments

/-- Whether a tree has something at a path. -/
def Has (root : Node) (path : Path) : Prop := (root.at? path).isSome = true

/-- What is one segment further down is under what is at the path. -/
theorem at?_push (root : Node) (path : Path) (segment : Segment) :
    root.at? (path.push segment) = (root.at? path).bind fun node => node.under? segment := by
  obtain ⟨segments⟩ := path
  unfold at? Path.push
  induction segments generalizing root with
  | nil => simp [along?]
  | cons first rest ih =>
      rw [List.cons_append, along?, along?, Option.bind_assoc]
      exact Option.bind_congr fun child _ => ih child

/-- The values of a node's fields or entries. -/
def children : Node → List Node
  | .struct fields => fields.entries.map Prod.snd
  | .catalog entities => entities.entries.map Prod.snd
  | .sideTable table => table.entries.map Prod.snd
  | _ => []

/-- What is found under a segment is one of the children. -/
theorem mem_children {node child : Node} {segment : Segment}
    (held : node.under? segment = some child) : child ∈ node.children := by
  unfold under? at held
  split at held
  · exact List.mem_map_of_mem (Keyed.mem_of_lookup held)
  · obtain ⟨key, -, found⟩ := Option.bind_eq_some_iff.mp held
    exact List.mem_map_of_mem (Keyed.mem_of_lookup found)
  · obtain ⟨key, -, found⟩ := Option.bind_eq_some_iff.mp held
    exact List.mem_map_of_mem (Keyed.mem_of_lookup found)
  · cases held

/-- What holds of a node when it holds of all its children holds of every node. -/
theorem induct_children {motive : Node → Prop}
    (step : ∀ node : Node, (∀ child ∈ node.children, motive child) → motive node) (node : Node) :
    motive node := by
  induction node using Node.induct with
  | leaf node primitive => exact step node (by cases node <;> simp_all [children, isPrimitive])
  | listing ids => exact step _ fun _ member => absurd member List.not_mem_nil
  | struct fields ih => exact step _ (List.forall_mem_map.mpr ih)
  | catalog entities ih => exact step _ (List.forall_mem_map.mpr ih)
  | sideTable table ih => exact step _ (List.forall_mem_map.mpr ih)

/-- Whether a node has no field and no identifier twice. -/
def HasDistinctKeys : Node → Prop
  | .struct fields => Keyed.Distinct fields.entries
  | .catalog entities => Keyed.Distinct entities.entries
  | .sideTable table => Keyed.Distinct table.entries
  | _ => True

/-- A tree as it can be built: nowhere in it is there a field or an identifier twice. -/
inductive Unambiguous : Node → Prop where
  | intro {node : Node} (distinct : node.HasDistinctKeys)
      (below : ∀ child ∈ node.children, Unambiguous child) : Unambiguous node

theorem Unambiguous.distinct {node : Node} : node.Unambiguous → node.HasDistinctKeys
  | intro distinct _ => distinct

theorem Unambiguous.child {node child : Node} :
    node.Unambiguous → child ∈ node.children → child.Unambiguous
  | intro _ below, member => below child member

/-- A node is unambiguous if no key is there twice in it, and its children are. -/
theorem unambiguous_iff {node : Node} :
    node.Unambiguous ↔ node.HasDistinctKeys ∧ ∀ child ∈ node.children, child.Unambiguous :=
  ⟨fun whole => ⟨whole.distinct, fun _ => whole.child⟩, fun ⟨distinct, below⟩ => ⟨distinct, below⟩⟩

@[simp] theorem unambiguous_leaf :
    (∀ value, (bool value).Unambiguous) ∧ (∀ value, (int value).Unambiguous) ∧
      (∀ value, (str value).Unambiguous) ∧ (∀ value, (id value).Unambiguous) ∧
      (∀ target, (ref target).Unambiguous) ∧ ∀ ids, (listing ids).Unambiguous := by
  and_intros <;> exact fun _ => .intro trivial nofun

@[simp] theorem unambiguous_struct {fields : Fields Node} : (struct fields).Unambiguous ↔
    Keyed.Distinct fields.entries ∧ ∀ field ∈ fields.entries, field.2.Unambiguous :=
  unambiguous_iff.trans (and_congr_right' List.forall_mem_map)

@[simp] theorem unambiguous_catalog {entities : Catalog Node} :
    (catalog entities).Unambiguous ↔
      Keyed.Distinct entities.entries ∧ ∀ entry ∈ entities.entries, entry.2.Unambiguous :=
  unambiguous_iff.trans (and_congr_right' List.forall_mem_map)

@[simp] theorem unambiguous_sideTable {table : SideTable Node} :
    (sideTable table).Unambiguous ↔
      Keyed.Distinct table.entries ∧ ∀ entry ∈ table.entries, entry.2.Unambiguous :=
  unambiguous_iff.trans (and_congr_right' List.forall_mem_map)

end Node

/-! ### What a report says -/

namespace Difference

/-- The path of a difference, if there is one. -/
def path? : Difference → Option Path
  | .none => Option.none
  | .missing path | .unexpected path | .primitive path | .multiple path _ => some path

/-- A difference at a path or below it. -/
def IsWithin (difference : Difference) (path : Path) : Prop :=
  ∃ own, difference.path? = some own ∧ path.segments <+: own.segments

/-- A report tells the truth about an expected tree and an actual one. That there is no difference
is never part of such a report. -/
inductive Truthful (expected actual : Node) : Difference → Prop where
  /-- The path is one of the expected tree only; what encloses it is there in both. -/
  | missing {path : Path} {segment : Segment} (present : expected.Has (path.push segment))
      (absent : ¬ actual.Has (path.push segment)) (enclosed : expected.Has path ∧ actual.Has path) :
      Truthful expected actual (.missing (path.push segment))
  /-- The path is one of the actual tree only; what encloses it is there in both. -/
  | unexpected {path : Path} {segment : Segment} (absent : ¬ expected.Has (path.push segment))
      (present : actual.Has (path.push segment)) (enclosed : expected.Has path ∧ actual.Has path) :
      Truthful expected actual (.unexpected (path.push segment))
  /-- Both trees have something else at the path. -/
  | primitive {path : Path} {mine theirs : Node} (held : expected.at? path = some mine)
      (found : actual.at? path = some theirs) (different : mine ≠ theirs) :
      Truthful expected actual (.primitive path)
  /-- Both trees have something at the path. The examples are true and about children of their own
  that differ, and when there are fewer of them than may be, no other child does. -/
  | multiple {path : Path} {examples : List Difference} {mine theirs : Node}
      {children : List Segment} (held : expected.at? path = some mine)
      (found : actual.at? path = some theirs) (several : 2 ≤ examples.length)
      (few : examples.length ≤ maxExamples) (apart : children.Nodup)
      (differ : ∀ child ∈ children, mine.under? child ≠ theirs.under? child)
      (about : List.Forall₂ (fun child shown => shown.IsWithin (path.push child)) children examples)
      (complete : examples.length < maxExamples →
        ∀ child, mine.under? child ≠ theirs.under? child → child ∈ children)
      (truthful : ∀ shown ∈ examples, Truthful expected actual shown) :
      Truthful expected actual (.multiple path examples)

theorem IsWithin.outward {difference : Difference} {path : Path} {segment : Segment}
    (within : difference.IsWithin (path.push segment)) : difference.IsWithin path := by
  obtain ⟨own, same, inside⟩ := within
  exact ⟨own, same, (List.prefix_append _ _).trans inside⟩

theorem isNone_iff {difference : Difference} : difference.isNone = true ↔ difference = .none := by
  cases difference <;> simp [isNone]

/-- Where something differs, the children that differ are put together as some difference. -/
theorem ofChildren_ne_none (path : Path) (children : List Difference) :
    ofChildren path children ≠ .none := by
  unfold ofChildren
  split
  · nofun
  · rename_i only kept
    have member : only ∈ children.filter fun child => !child.isNone := by simp [kept]
    intro same
    simp [same, isNone] at member
  · nofun

/-! ### Children -/

/-- The difference of a child at a path, which one of two trees may lack. -/
def ofChild (path : Path) : Option Node → Option Node → Difference
  | some mine, some theirs => mine.differenceAt path theirs
  | some _, Option.none => .missing path
  | Option.none, some _ => .unexpected path
  | Option.none, Option.none => .none

end Difference

namespace Node

/-- Fields and entries are compared one by one, each under its key. -/
theorem fieldComparisons_eq (fields : List (String × Node)) :
    fieldComparisons fields = Keyed.mapValues differenceAt fields := by
  induction fields with
  | nil => rfl
  | cons field rest ih => simp [fieldComparisons, Keyed.mapValues, ih]

theorem entryComparisons_eq (entries : List (Identifier × Node)) :
    entryComparisons entries = Keyed.mapValues differenceAt entries := by
  induction entries with
  | nil => rfl
  | cons entry rest ih => simp [entryComparisons, Keyed.mapValues, ih]

/-- No difference is found exactly between equal nodes. -/
theorem differenceAt_eq_none_iff {mine theirs : Node} {path : Path} :
    mine.differenceAt path theirs = .none ↔ mine = theirs := by
  unfold differenceAt
  split
  · simp_all
  · rename_i different
    simp only [different, iff_false]
    split
    · exact Difference.ofChildren_ne_none _ _
    · exact Difference.ofChildren_ne_none _ _
    · split
      · exact Difference.ofChildren_ne_none _ _
      · nofun
    · nofun

end Node

namespace Difference

theorem ofChild_eq_none_iff {path : Path} {mine theirs : Option Node} :
    ofChild path mine theirs = .none ↔ mine = theirs := by
  cases mine <;> cases theirs <;> simp [ofChild, Node.differenceAt_eq_none_iff]

section Entries

variable {κ : Type} [DecidableEq κ]

/-- The keys of two containers: those of the first one, then those that only the other one has. -/
def keysOfBoth (mine theirs : List (κ × Node)) : List κ :=
  Keyed.keys mine ++ Keyed.keys (theirs.filter fun entry => (mine.lookup entry.1).isNone)

theorem nodup_keysOfBoth {mine theirs : List (κ × Node)} (distinct : Keyed.Distinct mine)
    (distinct' : Keyed.Distinct theirs) : (keysOfBoth mine theirs).Nodup := by
  refine List.nodup_append.mpr ⟨distinct, ?_, ?_⟩
  · exact distinct'.sublist (List.Sublist.map _ List.filter_sublist)
  · rintro key member _ only rfl
    obtain ⟨entry, kept, rfl⟩ := List.mem_map.mp only
    have absent := (List.mem_filter.mp kept).2
    have there := Keyed.isSome_lookup_iff.mpr member
    rw [Option.isNone_iff_eq_none.mp absent] at there
    cases there

/-- A key under which two containers differ is one of those that are looked at. -/
theorem mem_keysOfBoth {mine theirs : List (κ × Node)} {key : κ}
    (different : mine.lookup key ≠ theirs.lookup key) : key ∈ keysOfBoth mine theirs := by
  rw [keysOfBoth, List.mem_append]
  by_cases own : (mine.lookup key).isSome = true
  · exact Or.inl (Keyed.isSome_lookup_iff.mp own)
  · have absent := Option.not_isSome_iff_eq_none.mp own
    rw [absent] at different
    obtain ⟨value, found⟩ := Option.ne_none_iff_exists'.mp different.symm
    refine Or.inr (List.mem_map.mpr ⟨(key, value), List.mem_filter.mpr ⟨?_, ?_⟩, rfl⟩)
    · exact Keyed.mem_of_lookup found
    · simp [absent]

/-- The differences of the entries are those of the children under all keys. -/
theorem ofEntries_eq (path : Path) (segment : κ → Segment) {mine theirs : List (κ × Node)}
    (distinct : Keyed.Distinct mine) (distinct' : Keyed.Distinct theirs) :
    ofEntries path segment (Keyed.mapValues Node.differenceAt mine) theirs =
      (keysOfBoth mine theirs).map fun key =>
        ofChild (path.push (segment key)) (mine.lookup key) (theirs.lookup key) := by
  have absent (key : κ) : ((Keyed.mapValues Node.differenceAt mine).lookup key).isNone =
      (mine.lookup key).isNone := by
    rw [Keyed.lookup_mapValues, Option.isNone_map]
  unfold ofEntries keysOfBoth Keyed.keys
  simp only [absent, List.map_append, List.map_map]
  congr 1
  · rw [Keyed.mapValues, List.map_map]
    refine List.map_congr_left fun entry member => ?_
    have own := Keyed.lookup_of_mem distinct member
    simp only [Function.comp_apply, own]
    cases theirs.lookup entry.1 <;> rfl
  · refine List.map_congr_left fun entry member => ?_
    obtain ⟨there, new⟩ := List.mem_filter.mp member
    have own := Keyed.lookup_of_mem distinct' there
    simp only [Function.comp_apply, own, Option.isNone_iff_eq_none.mp new]
    rfl

/-- Entries that stand under segments of their own are compared child by child, under all segments
under which the two nodes differ. -/
theorem exists_segments (path : Path) {segment : κ → Segment}
    (injective : Function.Injective segment) {mine theirs : Node} {entries others : List (κ × Node)}
    (distinct : Keyed.Distinct entries) (distinct' : Keyed.Distinct others)
    (under : ∀ key, mine.under? (segment key) = entries.lookup key)
    (under' : ∀ key, theirs.under? (segment key) = others.lookup key)
    (only : ∀ child, mine.under? child ≠ theirs.under? child → ∃ key, child = segment key) :
    ∃ segments : List Segment, segments.Nodup ∧
      (∀ child, mine.under? child ≠ theirs.under? child → child ∈ segments) ∧
        ofEntries path segment (Keyed.mapValues Node.differenceAt entries) others =
          segments.map fun child =>
            ofChild (path.push child) (mine.under? child) (theirs.under? child) := by
  refine ⟨(keysOfBoth entries others).map segment,
    (nodup_keysOfBoth distinct distinct').map injective, fun child different => ?_, ?_⟩
  · obtain ⟨key, rfl⟩ := only child different
    rw [under, under'] at different
    exact List.mem_map_of_mem (mem_keysOfBoth different)
  · rw [ofEntries_eq path segment distinct distinct', List.map_map]
    exact List.map_congr_left fun key _ => by rw [Function.comp_apply, under, under']

end Entries

end Difference

/-! ### Telling two nodes apart -/

namespace Node

theorem exists_name_of_ne {fields others : Fields Node} {child : Segment}
    (different : (struct fields).under? child ≠ (struct others).under? child) :
    ∃ name, child = .name name := by
  cases child with
  | name text => exact ⟨text, rfl⟩
  | parameter label => exact absurd rfl different

/-- What is under the text of an identifier is the entry of this identifier, in a catalog as in a
side table. -/
theorem under?_catalog (entities : Catalog Node) (key : Identifier) :
    (catalog entities).under? (.entry key) = entities.entries.lookup key := by
  change (Identifier.ofString? key.text).bind entities.get? = _
  rw [Identifier.ofString?_text]
  rfl

theorem under?_sideTable (table : SideTable Node) (key : Identifier) :
    (sideTable table).under? (.entry key) = table.entries.lookup key := by
  change (Identifier.ofString? key.text).bind table.get? = _
  rw [Identifier.ofString?_text]
  rfl

/-- Nodes that lead on by the text of an identifier only are told apart by identifiers only. -/
theorem exists_entry_of_ne {node other : Node} {child : Segment}
    {find find' : Identifier → Option Node}
    (leads : ∀ text, node.under? (.name text) = (Identifier.ofString? text).bind find)
    (leads' : ∀ text, other.under? (.name text) = (Identifier.ofString? text).bind find')
    (different : node.under? child ≠ other.under? child) : ∃ key, child = .entry key := by
  cases child with
  | parameter label => cases node <;> cases other <;> exact absurd rfl different
  | name text =>
      rw [leads, leads'] at different
      cases read : Identifier.ofString? text with
      | none => rw [read] at different; exact absurd rfl different
      | some key => exact ⟨key, congrArg Segment.name (Identifier.ofString?_eq_some_iff.mp read)⟩

/-- Two nodes that differ are told apart as a whole, or by the children under some segments, among
them all those under which they differ. -/
theorem differenceAt_cases {mine theirs : Node} (unambiguous : mine.Unambiguous)
    (unambiguous' : theirs.Unambiguous) (different : mine ≠ theirs) (path : Path) :
    mine.differenceAt path theirs = .primitive path ∨ ∃ segments : List Segment, segments.Nodup ∧
      (∀ child, mine.under? child ≠ theirs.under? child → child ∈ segments) ∧
        mine.differenceAt path theirs = .ofChildren path (segments.map fun child =>
          .ofChild (path.push child) (mine.under? child) (theirs.under? child)) := by
  unfold differenceAt
  rw [if_neg different]
  split
  case h_1 fields others =>
    obtain ⟨segments, nodup, every, same⟩ := Difference.exists_segments path
      (fun _ _ => Segment.name.inj) unambiguous.distinct unambiguous'.distinct (fun _ => rfl)
      (fun _ => rfl) fun _ => exists_name_of_ne
    exact Or.inr ⟨segments, nodup, every, by rw [fieldComparisons_eq, same]⟩
  case h_2 entries others =>
    obtain ⟨segments, nodup, every, same⟩ := Difference.exists_segments path Segment.entry_injective
      unambiguous.distinct unambiguous'.distinct (under?_catalog ⟨entries⟩) (under?_catalog others)
      fun _ => exists_entry_of_ne (fun _ => rfl) (fun _ => rfl)
    exact Or.inr ⟨segments, nodup, every, by rw [entryComparisons_eq, same]⟩
  case h_3 domain entries others =>
    split
    · obtain ⟨segments, nodup, every, same⟩ := Difference.exists_segments path
        Segment.entry_injective unambiguous.distinct unambiguous'.distinct
        (under?_sideTable ⟨domain, entries⟩) (under?_sideTable others)
        fun _ => exists_entry_of_ne (fun _ => rfl) (fun _ => rfl)
      exact Or.inr ⟨segments, nodup, every, by rw [entryComparisons_eq, same]⟩
    · exact Or.inl rfl
  case h_4 => exact Or.inl rfl

end Node

namespace Difference

variable {expected actual mine theirs : Node} {path : Path}

/-- The difference of a child is true of both trees when it is so of children that both have. -/
theorem Truthful.ofChild (held : expected.at? path = some mine)
    (found : actual.at? path = some theirs) {child : Segment}
    (both : ∀ value other, mine.under? child = some value → theirs.under? child = some other →
      value ≠ other → (value.differenceAt (path.push child) other).Truthful expected actual ∧
        (value.differenceAt (path.push child) other).IsWithin (path.push child))
    (different : mine.under? child ≠ theirs.under? child) :
    (Difference.ofChild (path.push child) (mine.under? child) (theirs.under? child)).Truthful
        expected actual ∧
      (Difference.ofChild (path.push child) (mine.under? child) (theirs.under? child)).IsWithin
        (path.push child) := by
  have enclosed : expected.Has path ∧ actual.Has path := by simp [Node.Has, held, found]
  have there : expected.at? (path.push child) = mine.under? child := by
    rw [Node.at?_push, held, Option.bind_some]
  have there' : actual.at? (path.push child) = theirs.under? child := by
    rw [Node.at?_push, found, Option.bind_some]
  cases own : mine.under? child with
  | none =>
      cases other : theirs.under? child with
      | none => exact absurd (own.trans other.symm) different
      | some value =>
          refine ⟨.unexpected ?_ ?_ enclosed, _, rfl, List.prefix_rfl⟩
          · simp [Node.Has, there, own]
          · simp [Node.Has, there', other]
  | some value =>
      cases other : theirs.under? child with
      | none =>
          refine ⟨.missing ?_ ?_ enclosed, _, rfl, List.prefix_rfl⟩
          · simp [Node.Has, there, own]
          · simp [Node.Has, there', other]
      | some value' =>
          refine both value value' own other ?_
          rintro rfl
          exact different (own.trans other.symm)

/-- The children of which a difference is left are those under which the two nodes differ. -/
theorem filter_ofChild (path : Path) (segments : List Segment) (mine theirs : Node) :
    ((segments.map fun child => Difference.ofChild (path.push child) (mine.under? child)
        (theirs.under? child)).filter fun difference => !difference.isNone) =
      (segments.filter fun child => decide (mine.under? child ≠ theirs.under? child)).map
        fun child => Difference.ofChild (path.push child) (mine.under? child)
          (theirs.under? child) := by
  rw [List.filter_map]
  congr 2
  funext child
  rw [Function.comp_apply, Bool.eq_iff_iff, Bool.not_eq_true', ← Bool.not_eq_true, isNone_iff,
    ofChild_eq_none_iff, decide_eq_true_iff]

/-- Children that differ, each with a true report, make a true report together. -/
theorem Truthful.ofSeveral (held : expected.at? path = some mine)
    (found : actual.at? path = some theirs) {differing : List Segment}
    {outcome : Segment → Difference}
    (several : 2 ≤ differing.length) (nodup : differing.Nodup)
    (every : ∀ child, child ∈ differing ↔ mine.under? child ≠ theirs.under? child)
    (each : ∀ child ∈ differing, (outcome child).Truthful expected actual ∧
      (outcome child).IsWithin (path.push child)) :
    (Difference.multiple path ((differing.map outcome).take maxExamples)).Truthful expected
      actual := by
  have length : ((differing.map outcome).take maxExamples).length =
      min maxExamples differing.length := by rw [List.length_take, List.length_map]
  have short (child : Segment) (member : child ∈ differing.take maxExamples) :=
    each child (List.mem_of_mem_take member)
  have apart : (differing.take maxExamples).Nodup := nodup.sublist (List.take_sublist _ _)
  refine .multiple held found ?_ ?_ apart ?_ ?_ ?_ ?_
  · rw [length]
    exact Nat.le_min.mpr ⟨by decide, several⟩
  · rw [length]
    exact Nat.min_le_left _ _
  · exact fun child member => (every child).mp (List.mem_of_mem_take member)
  · rw [← List.map_take, List.forall₂_map_right_iff, List.forall₂_same]
    exact fun child member => (short child member).2
  · intro fewer child apart
    rw [List.take_of_length_le (by omega)]
    exact (every child).mpr apart
  · rw [← List.map_take]
    exact List.forall_mem_map.mpr fun child member => (short child member).1

/-- What a comparison of two nodes that differ reports is true of the trees that they are in. -/
theorem truthful_differenceAt (unambiguous : mine.Unambiguous)
    (unambiguous' : theirs.Unambiguous) (held : expected.at? path = some mine)
    (found : actual.at? path = some theirs) (different : mine ≠ theirs) :
    (mine.differenceAt path theirs).Truthful expected actual ∧
      (mine.differenceAt path theirs).IsWithin path := by
  -- The induction is on the expected node. That both nodes stand at the path goes down with it.
  induction mine using Node.induct_children generalizing path theirs with
  | step mine ih =>
      have whole : (Difference.primitive path).Truthful expected actual ∧
          (Difference.primitive path).IsWithin path :=
        ⟨.primitive held found different, _, rfl, List.prefix_rfl⟩
      obtain same | ⟨segments, nodup, every, same⟩ :=
        Node.differenceAt_cases unambiguous unambiguous' different path
      · rw [same]
        exact whole
      · have below {child : Segment} (apart : mine.under? child ≠ theirs.under? child) :=
          Truthful.ofChild held found (fun value other own their differ =>
            ih value (Node.mem_children own) (unambiguous.child (Node.mem_children own))
              (unambiguous'.child (Node.mem_children their))
              (by rw [Node.at?_push, held]; exact own)
              (by rw [Node.at?_push, found]; exact their) differ) apart
        rw [same, ofChildren, filter_ofChild]
        have differing (child : Segment) : child ∈ segments.filter
            (fun child => decide (mine.under? child ≠ theirs.under? child)) ↔
              mine.under? child ≠ theirs.under? child := by
          rw [List.mem_filter, decide_eq_true_iff]
          exact ⟨And.right, fun apart => ⟨every child apart, apart⟩⟩
        have apart := nodup.filter fun child => decide (mine.under? child ≠ theirs.under? child)
        generalize segments.filter
          (fun child => decide (mine.under? child ≠ theirs.under? child)) = kept at differing apart
        match kept, differing, apart with
        | [], _, _ => exact whole
        | [child], differing, _ =>
            obtain ⟨truthful, within⟩ :=
              below ((differing child).mp (List.mem_singleton_self child))
            exact ⟨truthful, within.outward⟩
        | first :: second :: rest, differing, apart =>
            exact ⟨.ofSeveral held found (by simp) apart differing
              fun child member => below ((differing child).mp member), _, rfl, List.prefix_rfl⟩

end Difference

/-- A comparison of two trees finds nothing exactly when they are equal, and is true of both of them
when they are not. -/
theorem Node.difference_reports {expected actual : Node} (unambiguous : expected.Unambiguous)
    (unambiguous' : actual.Unambiguous) :
    (expected.difference actual = .none ↔ expected = actual) ∧
      (expected ≠ actual → (expected.difference actual).Truthful expected actual) :=
  ⟨Node.differenceAt_eq_none_iff, fun different =>
    (Difference.truthful_differenceAt unambiguous unambiguous' rfl rfl different).1⟩

namespace Sample

theorem newForest_unambiguous : newForest.Unambiguous := by
  simp [newForest, Keyed.Distinct, Keyed.keys, a, b]

theorem oldForest_unambiguous : oldForest.Unambiguous := by
  simp [oldForest, Keyed.Distinct, Keyed.keys, a, b]

/-- Two labels and a depth are missing, two of them below one mark. -/
theorem forest_difference :
    newForest.Unambiguous ∧ oldForest.Unambiguous ∧ newForest ≠ oldForest ∧
      newForest.difference oldForest =
        .multiple .root
          [.multiple (.ofNames ["marks", "b"])
            [.missing (.ofNames ["marks", "b", "depth"]),
              .missing (.ofNames ["marks", "b", "parts", "b", "label"])],
          .missing (.ofNames ["parts", "a", "label"])] ∧
      (newForest.difference oldForest).Truthful newForest oldForest :=
  have different : newForest ≠ oldForest := by decide
  ⟨newForest_unambiguous, oldForest_unambiguous, different, rfl,
    (Node.difference_reports newForest_unambiguous oldForest_unambiguous).2 different⟩

end Sample

end StateTree
