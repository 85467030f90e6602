/-
Module: StateTree.Proofs.Untouched
Purpose: What storing and deleting leave alone. A plain way that parts from the way of a change is
  read the same after it, faults included, in whatever tree; and each container on the way of the
  change keeps its other fields, entries or identifiers in their order.
-/
import StateTree.Proofs.Scopes
import StateTree.Proofs.Validity

namespace StateTree

/-! ### The rest of a container -/

namespace Keyed

variable {κ α : Type}

section Ordered

variable [DecidableEq κ]

/-- Storing under a key leaves the entries of the other keys in their order. -/
@[simp] theorem drop_put (key : κ) (value : α) (entries : List (κ × α)) :
    drop key (put key value entries) = drop key entries := by
  unfold drop
  induction entries with
  | nil => simp [put]
  | cons entry rest ih =>
      obtain ⟨other, stored⟩ := entry
      by_cases same : other = key
      · simp [put, same]
      · simp [put, same, ih]

/-- Nothing is left to remove of a key that was removed. -/
@[simp] theorem drop_drop (key : κ) (entries : List (κ × α)) :
    drop key (drop key entries) = drop key entries := by
  simp [drop]

end Ordered

/-- Storing under a key leaves the entries of the other keys in their order. -/
@[simp] theorem drop_putSorted (key : String) (value : α) (entries : List (String × α)) :
    drop key (putSorted key value entries) = drop key entries := by
  unfold drop
  induction entries with
  | nil => simp [putSorted]
  | cons entry rest ih =>
      obtain ⟨other, stored⟩ := entry
      unfold putSorted
      split
      · simp
      · split
        · rename_i same
          simp [same]
        · simp [List.filter_cons, ih]

end Keyed

namespace Listing

/-- Listing an identifier leaves the others in their order. -/
@[simp] theorem erase_insert (listing : Listing) (id : Identifier) :
    (listing.insert id).erase id = listing.erase id := by
  unfold insert erase
  split <;> simp

/-- Nothing is left to take off a listing that was taken off. -/
@[simp] theorem erase_erase (listing : Listing) (id : Identifier) :
    (listing.erase id).erase id = listing.erase id := by
  simp [erase]

end Listing

/-- A container without what a step leads to: all its other fields, entries or identifiers, in their
order. -/
def Node.beside : Node → Step → Node
  | .struct fields, .field name _ => .struct (fields.erase name)
  | .catalog entities, .catalogEntry (some key) => .catalog (entities.erase key)
  | .listing ids, .listingEntry (some key) _ _ => .listing (ids.erase key)
  | .sideTable table, .tableEntry (some key) _ _ => .sideTable (table.erase key)
  | node, _ => node

namespace Changes

variable {step other : Step} {front rest : List Step} {node after : Node} {change : Option Node}

/-- A change leaves the rest of the container that its first step leads into. -/
theorem beside (changes : Changes (step :: rest) node change after) :
    after.beside step = node.beside step := by
  cases changes with
  | fieldStored | fieldErased | belowField =>
      simp [Node.beside, Fields.insert, Fields.erase]
  | entityStored | entityErased | belowEntity =>
      simp [Node.beside, Catalog.insert, Catalog.erase]
  | listed | unlisted => simp [Node.beside]
  | valueStored | valueErased | belowValue =>
      simp [Node.beside, SideTable.insert, SideTable.erase]

/-- A change leaves the rest of every container on its way. -/
theorem beside_below (changes : Changes (front ++ step :: rest) node change after)
    {container : Node} (held : node.descendant? front = some container)
    (bare : ∀ earlier ∈ front, earlier.isListing = false) :
    ∃ later, after.descendant? front = some later ∧
      later.beside step = container.beside step := by
  obtain ⟨current, next, here, there, onward⟩ := changes.descendant?_below bare (by simp)
  cases held.symm.trans here
  exact ⟨next, there, onward.beside⟩

/-- What a change is made below keeps its shape. -/
theorem shapeName_eq (changes : Changes (step :: rest) node change after) :
    after.shapeName = node.shapeName := by
  cases changes <;> rfl

end Changes

/-! ### Reading beside a change -/

section Reading

variable {root later node after : Node} {path : Path} {step other : Step} {steps rest : List Step}
  {change : Option Node}

/-- A field is read by the shape of the node and what it holds there. -/
theorem readStep_field_eq (name : String) (deletable : Bool) :
    readStep root path (.field name deletable) node =
      if node.shapeName = "struct" then orNonexistent path (node.child? (.field name deletable))
      else .error (.invalidNode (.location path) (.shape "struct" node.shapeName)) := by
  cases node <;> rfl

/-- An entry of a catalog is read by the shape of the node and what it holds there. -/
theorem readStep_catalogEntry_eq (key : Option Identifier) :
    readStep root path (.catalogEntry key) node = (do
      let _ ← orUnbound path key
      if node.shapeName = "catalog" then orNonexistent path (node.child? (.catalogEntry key))
      else .error (.invalidNode (.location path) (.shape "catalog" node.shapeName))) := by
  cases key with
  | none => rfl
  | some id => cases node <;> rfl

/-- A plain step beside a change is read the same after it. -/
theorem Changes.readStep_of_ne (changes : Changes (other :: rest) node change after)
    (plain : step.isPlain = true) (apart : step.segment? ≠ other.segment?) :
    readStep later path step after = readStep root path step node := by
  have shape := changes.shapeName_eq
  have child := changes.child?_of_ne apart
  cases step with
  | field name deletable => rw [readStep_field_eq, readStep_field_eq, shape, child]
  | catalogEntry key => rw [readStep_catalogEntry_eq, readStep_catalogEntry_eq, shape, child]
  | listingEntry | tableEntry => cases plain

/-- Plain steps are followed without looking at the root. -/
theorem readSteps_of_arePlain (plain : Step.ArePlain steps) :
    readSteps later path steps node = readSteps root path steps node := by
  induction steps generalizing node with
  | nil => rfl
  | cons step rest ih =>
      obtain ⟨first, plain⟩ := List.forall_mem_cons.mp plain
      have same : readStep later path step node = readStep root path step node := by
        cases step with
        | field | catalogEntry => rfl
        | listingEntry | tableEntry => cases first
      rw [readSteps, readSteps, same]
      exact bind_congr fun next => ih plain

/-- A plain way that parts from the way of a change is read the same after it: both are read up to
where they part, and the next step is read beside the change. -/
theorem Schema.Leads.readSteps_of_apart {schema : Schema} {type target goal : FieldType}
    {segments whole : List Segment} {way : List Step}
    (leads : schema.Leads type segments steps target) (plain : Step.ArePlain steps)
    (led : schema.Leads type whole way goal) (changes : Changes way node change after)
    (named : ∀ segment ∈ segments, segment.isParameter = false)
    (free : ∀ segment ∈ whole, segment.isParameter = false)
    (outside : ¬ segments <+: whole) (beside : ¬ whole <+: segments) :
    readSteps later path steps after = readSteps root path steps node := by
  obtain ⟨front, step, rest, other, far, rfl, rfl, apart⟩ :=
    leads.parting led named free outside beside
  obtain ⟨common, onward⟩ := List.forall_mem_append.mp plain
  obtain ⟨first, onward⟩ := List.forall_mem_cons.mp onward
  obtain ⟨current, next, here, there, below⟩ :=
    changes.descendant?_below led.bare_front (by simp)
  rw [readSteps_append, readSteps_append, (readSteps_eq_ok_iff common).mpr here,
    (readSteps_eq_ok_iff common).mpr there, ok_bind, ok_bind, readSteps, readSteps,
    below.readStep_of_ne first apart]
  exact bind_congr fun found => readSteps_of_arePlain onward

end Reading

/-! ### Storing and deleting -/

namespace Accessor

variable {schema : Schema} {accessor : Accessor} {root value after : Node}

/-- Storing a value is a change on the accessor's way, which has no parameters. -/
theorem changes_of_set (stored : accessor.set schema root value = .ok after) :
    accessor.path.isParameterized = false ∧ Changes accessor.steps root (some value) after := by
  obtain ⟨⟨⟩, checked, written⟩ := bind_eq_ok_iff.mp stored
  obtain ⟨⟨⟩, bound, -⟩ := bind_eq_ok_iff.mp checked
  exact ⟨requireBound_eq_ok_iff.mp bound, changes_of_writeSteps written⟩

/-- Deleting leaves the tree or is a change on the accessor's way, which has no parameters. -/
theorem changes_of_delete (deleted : accessor.delete root = .ok after) :
    accessor.path.isParameterized = false ∧
      (after = root ∨ Changes accessor.steps root none after) := by
  obtain ⟨⟨⟩, checked, deleted⟩ := bind_eq_ok_iff.mp deleted
  obtain ⟨⟨⟩, bound, -⟩ := bind_eq_ok_iff.mp checked
  obtain ⟨outcome, removed, same⟩ := bind_eq_ok_iff.mp deleted
  cases same
  refine ⟨requireBound_eq_ok_iff.mp bound, ?_⟩
  cases outcome with
  | none => exact Or.inl rfl
  | some changed => exact Or.inr (changes_of_deleteSteps removed)

/-- Storing and deleting touch nothing else. In any tree, valid or not, what is read along fields
and entries of catalogs at a path that does not overlap the target is the same after the change, a
value or a fault; and each container on the way to the target keeps all its other fields, entries
or identifiers, in their order. -/
theorem spares_others {path : Path} (resolved : schema.resolve path = .ok accessor)
    (done : (∃ value, accessor.set schema root value = .ok after) ∨
      accessor.delete root = .ok after) :
    (∀ other bystander, schema.resolve other = .ok bystander → other.isParameterized = false →
        Step.ArePlain bystander.steps → other.overlaps path = false →
        bystander.get after = bystander.get root) ∧
      ∀ front step rest container, accessor.steps = front ++ step :: rest →
        root.descendant? front = some container →
        ∃ later, after.descendant? front = some later ∧
          later.beside step = container.beside step := by
  have leads := Schema.leads_of_resolve resolved
  obtain rfl := Schema.path_of_resolve resolved
  obtain ⟨bound, outcome⟩ : accessor.path.isParameterized = false ∧
      (after = root ∨ ∃ change, Changes accessor.steps root change after) := by
    rcases done with ⟨value, stored⟩ | deleted
    · obtain ⟨bound, changes⟩ := changes_of_set stored
      exact ⟨bound, Or.inr ⟨_, changes⟩⟩
    · obtain ⟨bound, left⟩ := changes_of_delete deleted
      exact ⟨bound, left.imp_right fun changes => ⟨_, changes⟩⟩
  rcases outcome with rfl | ⟨change, changes⟩
  · exact ⟨fun _ _ _ _ _ _ => rfl, fun _ _ _ container _ held => ⟨container, held, rfl⟩⟩
  constructor
  · intro other bystander found free plain apart
    obtain rfl := Schema.path_of_resolve found
    rw [Path.overlaps, Bool.or_eq_false_iff] at apart
    have outside : ¬ bystander.path.segments <+: accessor.path.segments := fun inside => by
      simpa [Path.isPrefixOf, List.isPrefixOf_iff_prefix.mpr inside] using apart.1
    have beside : ¬ accessor.path.segments <+: bystander.path.segments := fun inside => by
      simpa [Path.isPrefixOf, List.isPrefixOf_iff_prefix.mpr inside] using apart.2
    refine bind_congr fun _ => ?_
    exact (Schema.leads_of_resolve found).readSteps_of_apart plain leads changes
      (Path.isParameterized_eq_false_iff.mp free) (Path.isParameterized_eq_false_iff.mp bound)
      outside beside
  · intro front step rest container split held
    rw [split] at changes leads
    exact changes.beside_below held leads.bare_front

end Accessor

/-! ### In the sample -/

namespace Sample

/-- The way to the note on the target `a`. -/
def note : Accessor :=
  ⟨.ofNames ["notes", "a"],
    [.field "notes" false, .tableEntry (some a) targets [.field "targets" false]], .str⟩

/-- The way to the identifier of the target `a`. -/
def ownId : Accessor :=
  ⟨.ofNames ["targets", "a", "id"],
    [.field "targets" false, .catalogEntry (some a), .field "id" false], .identifier⟩

/-- The sample without the note on `a`. -/
def unnoted : Node :=
  .struct ⟨[("chosen", .listing ⟨targets, [a]⟩),
    ("notes", .sideTable ⟨targets, [(b, .str "gone")]⟩),
    ("targets", .catalog ⟨[(a, .struct ⟨[("id", .id a)]⟩)]⟩),
    ("title", .str "sample")]⟩

/-- Deleting the first of two notes leaves the other one, and the target. -/
theorem unnoted_spares_others :
    schema.resolve note.path = .ok note ∧ note.delete tree = .ok unnoted ∧
      schema.resolve ownId.path = .ok ownId ∧ ownId.path.isParameterized = false ∧
      Step.ArePlain ownId.steps ∧ ownId.path.overlaps note.path = false ∧
      ownId.get unnoted = ownId.get tree ∧
      ∃ later, unnoted.descendant? [.field "notes" false] = some later ∧
        later.beside (.tableEntry (some a) targets [.field "targets" false]) =
          .sideTable ⟨targets, [(b, .str "gone")]⟩ := by
  have plain : Step.ArePlain ownId.steps := by
    simp [Step.ArePlain, ownId, Step.isPlain]
  have resolved : schema.resolve note.path = .ok note := rfl
  have deleted : note.delete tree = .ok unnoted := rfl
  obtain ⟨reads, keeps⟩ := Accessor.spares_others resolved (Or.inr deleted)
  exact ⟨resolved, deleted, rfl, rfl, plain, rfl,
    reads ownId.path ownId rfl rfl plain rfl,
    keeps [.field "notes" false] _ [] _ rfl rfl⟩

end Sample

end StateTree
