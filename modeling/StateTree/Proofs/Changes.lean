/-
Module: StateTree.Proofs.Changes
Purpose: What storing and deleting do to a tree, as one relation. It has a case for each place a
  change can be made and one for each kind of container on the way, and everything off the way
  stays. Both ways of writing are instances, so that what a change keeps is proved once.
-/
import StateTree.Proofs.Typing
import StateTree.Update

namespace StateTree

/-- A tree becomes another by one change at the end of steps: `some` value is stored, or with
`none` what is there is deleted. -/
inductive Changes : List Step → Node → Option Node → Node → Prop
  | replaced {node value : Node} : Changes [] node (some value) value
  | fieldStored {name : String} {deletable : Bool} {fields : Fields Node} {value : Node} :
      Changes [.field name deletable] (.struct fields) (some value)
        (.struct (fields.insert name value))
  | fieldErased {name : String} {deletable : Bool} {fields : Fields Node} {current : Node}
      (held : fields.get? name = some current) :
      Changes [.field name deletable] (.struct fields) none (.struct (fields.erase name))
  | belowField {name : String} {deletable : Bool} {rest : List Step} {fields : Fields Node}
      {current after : Node} {change : Option Node} (more : rest ≠ [])
      (held : fields.get? name = some current) (onward : Changes rest current change after) :
      Changes (.field name deletable :: rest) (.struct fields) change
        (.struct (fields.insert name after))
  | entityStored {id : Identifier} {entities : Catalog Node} {value : Node} :
      Changes [.catalogEntry (some id)] (.catalog entities) (some value)
        (.catalog (entities.insert id value))
  | entityErased {id : Identifier} {entities : Catalog Node} :
      Changes [.catalogEntry (some id)] (.catalog entities) none (.catalog (entities.erase id))
  | belowEntity {id : Identifier} {rest : List Step} {entities : Catalog Node}
      {current after : Node} {change : Option Node} (more : rest ≠ [])
      (held : entities.get? id = some current) (onward : Changes rest current change after) :
      Changes (.catalogEntry (some id) :: rest) (.catalog entities) change
        (.catalog (entities.insert id after))
  | listed {id : Identifier} {domain : Path} {inner rest : List Step} {listing : Listing}
      {value : Node} :
      Changes (.listingEntry (some id) domain inner :: rest) (.listing listing) (some value)
        (.listing (listing.insert id))
  | unlisted {id : Identifier} {domain : Path} {inner rest : List Step} {listing : Listing} :
      Changes (.listingEntry (some id) domain inner :: rest) (.listing listing) none
        (.listing (listing.erase id))
  | valueStored {id : Identifier} {domain : Path} {inner : List Step} {table : SideTable Node}
      {value : Node} :
      Changes [.tableEntry (some id) domain inner] (.sideTable table) (some value)
        (.sideTable (table.insert id value))
  | valueErased {id : Identifier} {domain : Path} {inner : List Step} {table : SideTable Node} :
      Changes [.tableEntry (some id) domain inner] (.sideTable table) none
        (.sideTable (table.erase id))
  | belowValue {id : Identifier} {domain : Path} {inner rest : List Step}
      {table : SideTable Node} {current after : Node} {change : Option Node} (more : rest ≠ [])
      (held : table.get? id = some current) (onward : Changes rest current change after) :
      Changes (.tableEntry (some id) domain inner :: rest) (.sideTable table) change
        (.sideTable (table.insert id after))

/-! ### The shape that is asked for -/

/-- A node that is asked for as a struct is one. -/
theorem asStruct_located {path : Path} {node : Node} {fields : Fields Node} :
    locate path node.asStruct = .ok fields ↔ node = .struct fields := by
  cases node <;> simp [Node.asStruct, locate]

theorem asCatalog_located {path : Path} {node : Node} {entities : Catalog Node} :
    locate path node.asCatalog = .ok entities ↔ node = .catalog entities := by
  cases node <;> simp [Node.asCatalog, locate]

theorem asListing_located {path : Path} {node : Node} {listing : Listing} :
    locate path node.asListing = .ok listing ↔ node = .listing listing := by
  cases node <;> simp [Node.asListing, locate]

theorem asSideTable_located {path : Path} {node : Node} {table : SideTable Node} :
    locate path node.asSideTable = .ok table ↔ node = .sideTable table := by
  cases node <;> simp [Node.asSideTable, locate]

theorem orNonexistent_eq_ok_iff {α : Type} {path : Path} {held : Option α} {value : α} :
    orNonexistent path held = .ok value ↔ held = some value := by
  cases held <;> simp [orNonexistent]

theorem orUnbound_eq_ok_iff {path : Path} {key : Option Identifier} {id : Identifier} :
    orUnbound path key = .ok id ↔ key = some id := by
  cases key <;> simp [orUnbound]

/-! ### Both ways of writing -/

/-- Storing a value is a change. -/
theorem changes_of_writeSteps {path : Path} {steps : List Step} {node value after : Node}
    (written : writeSteps path steps node value = .ok after) :
    Changes steps node (some value) after := by
  induction steps generalizing node after with
  | nil =>
      cases written
      exact .replaced
  | cons step rest ih =>
      cases step with
      | field name deletable =>
          rw [writeSteps, bind_eq_ok_iff] at written
          obtain ⟨fields, shape, written⟩ := written
          rw [asStruct_located] at shape
          subst shape
          cases rest with
          | nil =>
              cases written
              exact .fieldStored
          | cons next rest =>
              simp only [List.isEmpty_cons, Bool.false_eq_true, if_false, bind_eq_ok_iff,
                orNonexistent_eq_ok_iff] at written
              obtain ⟨current, held, child, onward, same⟩ := written
              cases same
              exact .belowField (by simp) held (ih onward)
      | catalogEntry key =>
          simp only [writeSteps, bind_eq_ok_iff, orUnbound_eq_ok_iff, asCatalog_located] at written
          obtain ⟨id, rfl, entities, rfl, written⟩ := written
          cases rest with
          | nil =>
              cases written
              exact .entityStored
          | cons next rest =>
              simp only [List.isEmpty_cons, Bool.false_eq_true, if_false, bind_eq_ok_iff,
                orNonexistent_eq_ok_iff] at written
              obtain ⟨current, held, child, onward, same⟩ := written
              cases same
              exact .belowEntity (by simp) held (ih onward)
      | listingEntry key domain inner =>
          simp only [writeSteps, bind_eq_ok_iff, orUnbound_eq_ok_iff, asListing_located] at written
          obtain ⟨id, rfl, listing, rfl, same⟩ := written
          cases same
          exact .listed
      | tableEntry key domain inner =>
          simp only [writeSteps, bind_eq_ok_iff, orUnbound_eq_ok_iff, asSideTable_located]
            at written
          obtain ⟨id, rfl, table, rfl, written⟩ := written
          cases rest with
          | nil =>
              cases written
              exact .valueStored
          | cons next rest =>
              simp only [List.isEmpty_cons, Bool.false_eq_true, if_false, bind_eq_ok_iff,
                orNonexistent_eq_ok_iff] at written
              obtain ⟨current, held, child, onward, same⟩ := written
              cases same
              exact .belowValue (by simp) held (ih onward)

/-- A deletion below what is there succeeds with a change where it did below. -/
theorem map_eq_some_of_deleted {rest : List Step} {path : Path} {current after : Node}
    {around : Node → Node} (deleted : (do
      let child ← deleteSteps path rest current
      pure (child.map around)) = Except.ok (some after)) :
    ∃ child, deleteSteps path rest current = .ok (some child) ∧ after = around child := by
  rw [bind_eq_ok_iff] at deleted
  obtain ⟨child, onward, same⟩ := deleted
  cases child with
  | none => cases same
  | some child =>
      cases same
      exact ⟨child, onward, rfl⟩

/-- Deleting what is there is a change. -/
theorem changes_of_deleteSteps {path : Path} {steps : List Step} {node after : Node}
    (deleted : deleteSteps path steps node = .ok (some after)) : Changes steps node none after := by
  induction steps generalizing node after with
  | nil => cases deleted
  | cons step rest ih =>
      cases step with
      | field name deletable =>
          simp only [deleteSteps, bind_eq_ok_iff, asStruct_located] at deleted
          obtain ⟨fields, rfl, deleted⟩ := deleted
          cases held : fields.get? name with
          | none => simp [held] at deleted
          | some current =>
              simp only [held] at deleted
              cases rest with
              | nil =>
                  cases deleted
                  exact .fieldErased held
              | cons next rest =>
                  obtain ⟨child, onward, rfl⟩ := map_eq_some_of_deleted deleted
                  exact .belowField (by simp) held (ih onward)
      | catalogEntry key =>
          simp only [deleteSteps, bind_eq_ok_iff, orUnbound_eq_ok_iff, asCatalog_located]
            at deleted
          obtain ⟨id, rfl, entities, rfl, deleted⟩ := deleted
          cases held : entities.get? id with
          | none => simp [held] at deleted
          | some current =>
              simp only [held] at deleted
              cases rest with
              | nil =>
                  cases deleted
                  exact .entityErased
              | cons next rest =>
                  obtain ⟨child, onward, rfl⟩ := map_eq_some_of_deleted deleted
                  exact .belowEntity (by simp) held (ih onward)
      | listingEntry key domain inner =>
          simp only [deleteSteps, bind_eq_ok_iff, orUnbound_eq_ok_iff, asListing_located]
            at deleted
          obtain ⟨id, rfl, listing, rfl, deleted⟩ := deleted
          cases listed : listing.contains id with
          | false => simp [listed] at deleted
          | true =>
              simp only [listed, if_true] at deleted
              cases deleted
              exact .unlisted
      | tableEntry key domain inner =>
          simp only [deleteSteps, bind_eq_ok_iff, orUnbound_eq_ok_iff, asSideTable_located]
            at deleted
          obtain ⟨id, rfl, table, rfl, deleted⟩ := deleted
          cases held : table.get? id with
          | none => simp [held] at deleted
          | some current =>
              simp only [held] at deleted
              cases rest with
              | nil =>
                  cases deleted
                  exact .valueErased
              | cons next rest =>
                  obtain ⟨child, onward, rfl⟩ := map_eq_some_of_deleted deleted
                  exact .belowValue (by simp) held (ih onward)

/-! ### Operations -/

/-- The checks that an operation passes before it looks at the tree. -/
def Operation.Checked (operation : Operation) (schema : Schema) (accessor : Accessor) : Prop :=
  match operation.value? with
  | some value => accessor.checkValue schema value = .ok ()
  | none => accessor.checkDeletable = .ok ()

/-- A replacement that has an effect was allowed, and is a change along the steps of its
accessor. -/
theorem set_eq_some {schema : Schema} {accessor : Accessor} {root value after : Node}
    (stored : Operation.replace schema accessor root value = .ok (some after)) :
    accessor.checkValue schema value = .ok () ∧
      Changes accessor.steps root (some value) after := by
  unfold Operation.replace at stored
  split at stored
  · rename_i found written
    cases stored
    rw [Accessor.set, bind_eq_ok_iff] at written
    obtain ⟨⟨⟩, checked, written⟩ := written
    exact ⟨checked, changes_of_writeSteps written⟩
  · cases stored
  · cases stored

theorem remove_eq_some {accessor : Accessor} {root after : Node}
    (removed : Operation.remove accessor root = .ok (some after)) :
    accessor.checkDeletable = .ok () ∧ Changes accessor.steps root none after := by
  simp only [Operation.remove, Accessor.delete, bind_eq_ok_iff] at removed
  obtain ⟨left, ⟨⟨⟩, checked, outcome, deleted, same⟩, removed⟩ := removed
  cases same
  refine ⟨checked, ?_⟩
  cases outcome with
  | none => simp at removed
  | some changed =>
      simp only [Option.getD_some] at removed
      split at removed
      · cases removed
      · cases removed
        exact changes_of_deleteSteps deleted

/-- An operation with an effect passes its checks and makes one change where its target leads. -/
theorem Operation.changes_of_apply {operation : Operation} {schema : Schema} {root after : Node}
    (applied : operation.apply schema root = .ok (some after)) :
    ∃ accessor, schema.resolve operation.target = .ok accessor ∧
      operation.Checked schema accessor ∧
      Changes accessor.steps root operation.value? after := by
  rw [apply, bind_eq_ok_iff] at applied
  obtain ⟨accessor, resolved, applied⟩ := applied
  rw [bind_eq_ok_iff] at applied
  obtain ⟨proceeds, met, applied⟩ := applied
  refine ⟨accessor, resolved, ?_⟩
  cases proceeds with
  | false => cases applied
  | true =>
      rw [if_pos rfl] at applied
      cases operation with
      | replacement target value => exact set_eq_some applied
      | conditionalReplacement target value precondition required => exact set_eq_some applied
      | initialization target value =>
          simp only at applied
          split at applied
          · cases applied
          · exact set_eq_some applied
      | deletion target => exact remove_eq_some applied
      | conditionalDeletion target precondition required => exact remove_eq_some applied

end StateTree
