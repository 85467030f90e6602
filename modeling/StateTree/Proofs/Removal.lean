/-
Module: StateTree.Proofs.Removal
Purpose: Deletions. One that passes its check never fails: it has an effect exactly when something
  is stored at its target, dangling entries included, and afterwards nothing is stored or read there
  and a second deletion changes nothing. The tree stays valid, since the only required field that
  the check lets through, the identifier of an entity, is required of every entity.
-/
import StateTree.Proofs.Ancestors
import StateTree.Proofs.Acceptance
import StateTree.Proofs.Published

namespace StateTree

/-! ### Whether a deletion has an effect -/

namespace Schema

variable {schema : Schema} {type target : FieldType} {segments : List Segment} {steps : List Step}
  {node : Node}

/-- What is deleted from a legal node is what is stored there, and where nothing is, the deletion
leaves the node. -/
theorem Leads.deleteSteps_cases (leads : schema.Leads type segments steps target)
    (named : ∀ segment ∈ segments, segment.isParameter = false) (fits : schema.Fits type node)
    (path : Path) : steps ≠ [] →
    (node.stores steps = true ∧ ∃ after, deleteSteps path steps node = .ok (some after)) ∨
      (node.stores steps = false ∧ deleteSteps path steps node = .ok none) := by
  refine leads.walk ?here ?last ?missing ?below named fits
  case here => exact fun node more => absurd rfl more
  case last => exact fun step node opens _ => deleteSteps_last opens path
  case missing =>
    intro step rest node opens bare more held _
    rw [deleteSteps_below opens bare more, Node.stores_cons_of_bare bare, held]
    exact Or.inr ⟨rfl, rfl⟩
  case below =>
    intro step rest node child opens bare more held inner _
    rw [deleteSteps_below opens bare more, Node.stores_cons_of_bare bare, held]
    rcases inner more with ⟨there, after, deleted⟩ | ⟨absent, left⟩
    · exact Or.inl ⟨there, node.withChild step after, by simp [deleted, Except.map]⟩
    · exact Or.inr ⟨absent, by simp [left, Except.map]⟩

end Schema

/-- Nothing is stored where something was deleted. -/
theorem Changes.stores_erased {steps : List Step} {node after : Node}
    (changes : Changes steps node none after) : after.stores steps = false := by
  generalize erased : none = change at changes
  induction changes with
  | fieldErased | entityErased | valueErased => simp [Node.stores, Node.lists, Node.child?]
  | unlisted => simp [Node.stores, Node.lists, Node.child?, Listing.contains, Listing.erase]
  | belowField _ _ _ ih | belowEntity _ _ _ ih | belowValue _ _ _ ih =>
      simp [Node.stores, Node.lists, Node.child?, ih erased]
  | _ => cases erased

/-- Deleting what is stored changes the node. -/
theorem Changes.ne_of_stored {steps : List Step} {node after : Node}
    (changes : Changes steps node none after) (stored : node.stores steps = true) :
    after ≠ node := by
  rintro rfl
  simp [changes.stores_erased] at stored

/-! ### Identifiers of entities -/

/-- The identifier of an entity may not be absent. -/
theorem StructDef.id_required {struct : StructDef} {declared : FieldDef}
    (entity : struct.isEntity = true) (named : struct.field? "id" = some declared) :
    declared.presence.isDeletable = false := by
  simp only [isEntity, named, Bool.and_eq_true, beq_iff_eq] at entity
  rw [entity.2]
  rfl

/-- Under a schema that was built, the step from an entry of a catalog to its identifier leads to a
required field. By induction on what is before that entry. -/
theorem Schema.Leads.id_required {schema : Schema}
    (accepted : ∀ declaration ∈ schema.declarations, schema.Accepts declaration.2)
    {type target : FieldType} {segments : List Segment} {steps front : List Step}
    {key : Option Identifier} {deletable : Bool}
    (leads : schema.Leads type segments steps target) (known : schema.Knows type)
    (split : steps = front ++ [.catalogEntry key, .field "id" deletable]) : deletable = false := by
  induction front generalizing type segments steps with
  | nil =>
      subst split
      cases leads with
      | catalogEntry keyed onward =>
          cases onward with
          | field found named onward =>
              obtain ⟨struct, same, entity⟩ := known
              cases found.symm.trans same
              exact StructDef.id_required entity named
  | cons step front ih =>
      cases leads with
      | here => cases split
      | field found named onward =>
          have member := (StructDef.mem_of_field? named).1
          have declared := mem_declarations (Keyed.mem_of_lookup found) member
          exact ih onward (accepted _ declared).known (List.tail_eq_of_cons_eq split)
      | catalogEntry keyed onward =>
          obtain ⟨struct, found, -⟩ := known
          exact ih onward (by simp [Schema.Knows, found]) (List.tail_eq_of_cons_eq split)
      | listingEntry => simp at split
      | tableEntry keyed owner onward => exact ih onward known (List.tail_eq_of_cons_eq split)

namespace Accessor

variable {schema : Schema} {builder : SchemaBuilder} {root after : Node} {path : Path}
  {accessor : Accessor}

/-- A deletion that passes its check rekeys no entity. -/
theorem not_rekeys_of_checkDeletable (built : builder.build = .ok schema)
    (resolved : schema.resolve path = .ok accessor)
    (checked : accessor.checkDeletable = .ok ()) : ¬ Rekeys accessor.steps none := by
  rintro ⟨front, key, deletable, split, -⟩
  obtain ⟨-, defined, accepted⟩ := Schema.build_eq_ok_iff.mp built
  obtain rfl := (Schema.leads_of_resolve resolved).id_required accepted defined split
  obtain ⟨⟨⟩, -, checked⟩ := bind_eq_ok_iff.mp checked
  simp [split] at checked

/-! ### Readers -/

/-- Where nothing is stored nothing is read. -/
theorem get_of_not_stored (sound : schema.SoundDomains) (valid : schema.Valid root)
    (free : path.isParameterized = false) (resolved : schema.resolve path = .ok accessor)
    (missing : root.stores accessor.steps = false) :
    accessor.get root = .error (.nonexistent path) := by
  rcases get_reaches sound valid free resolved with ⟨node, read, -⟩ | absent
  · obtain ⟨⟨⟩, -, read⟩ := bind_eq_ok_iff.mp read
    rw [Node.stores_of_readSteps read] at missing
    cases missing
  · exact absent

/-! ### Deletions -/

/-- A deletion that passes its check takes away what is stored at the target, and where nothing is
stored it leaves the tree. -/
theorem delete_cases (valid : schema.Valid root) (resolved : schema.resolve path = .ok accessor)
    (checked : accessor.checkDeletable = .ok ()) :
    (root.stores accessor.steps = true ∧ ∃ after, accessor.delete root = .ok after ∧
        Changes accessor.steps root none after) ∨
      (root.stores accessor.steps = false ∧ accessor.delete root = .ok root) := by
  obtain ⟨⟨⟩, bound, lasts⟩ := bind_eq_ok_iff.mp checked
  have free := Path.isParameterized_eq_false_iff.mp (requireBound_eq_ok_iff.mp bound)
  have more : accessor.steps ≠ [] := fun none => by simp [none] at lasts
  obtain rfl := Schema.path_of_resolve resolved
  rw [delete, checked, ok_bind]
  rcases (Schema.leads_of_resolve resolved).deleteSteps_cases free valid accessor.path more with
    ⟨stored, after, deleted⟩ | ⟨missing, left⟩
  · exact Or.inl ⟨stored, after, by simp [deleted], changes_of_deleteSteps deleted⟩
  · exact Or.inr ⟨missing, by simp [left]⟩

/-- A deletion that passes its check leaves a valid tree. -/
theorem valid_of_deleted (built : builder.build = .ok schema) (distinct : schema.DistinctFields)
    (valid : schema.Valid root) (resolved : schema.resolve path = .ok accessor)
    (checked : accessor.checkDeletable = .ok ())
    (changes : Changes accessor.steps root none after) : schema.Valid after := by
  have passed : (Operation.deletion path).Checked schema accessor := checked
  obtain ⟨free, suits⟩ := passed.suits
  have admits := (Schema.leads_of_resolve resolved).admits_iff distinct
    (Path.isParameterized_eq_false_iff.mp (Schema.path_of_resolve resolved ▸ free)) suits
  exact (changes.fits_iff valid).mpr
    (admits.mpr (not_rekeys_of_checkDeletable built resolved checked))

/-- A deletion that passes its check succeeds and leaves a valid tree, in which nothing is read at
the target and the same deletion changes nothing. It has changed the tree exactly when something was
stored at the target, be it an entry that dangles. -/
theorem delete_leaves_nothing (built : builder.build = .ok schema)
    (distinct : schema.DistinctFields) (sound : schema.SoundDomains) (valid : schema.Valid root)
    (resolved : schema.resolve path = .ok accessor)
    (checked : accessor.checkDeletable = .ok ()) :
    ∃ after, accessor.delete root = .ok after ∧ schema.Valid after ∧
      accessor.get after = .error (.nonexistent path) ∧ accessor.delete after = .ok after ∧
      (after ≠ root ↔ schema.Stores root path) := by
  have free : path.isParameterized = false := by
    obtain ⟨⟨⟩, bound, -⟩ := bind_eq_ok_iff.mp checked
    exact Schema.path_of_resolve resolved ▸ requireBound_eq_ok_iff.mp bound
  rw [Schema.stores_iff resolved]
  rcases delete_cases valid resolved checked with
    ⟨stored, after, deleted, changes⟩ | ⟨missing, left⟩
  · have kept := valid_of_deleted built distinct valid resolved checked changes
    have gone := changes.stores_erased
    have again : accessor.delete after = .ok after := by
      rcases delete_cases kept resolved checked with ⟨there, -⟩ | ⟨-, left⟩
      · simp [gone] at there
      · exact left
    refine ⟨after, deleted, kept, get_of_not_stored sound kept free resolved gone, again, ?_⟩
    exact iff_of_true (changes.ne_of_stored stored) stored
  · exact ⟨root, left, valid, get_of_not_stored sound valid free resolved missing, left,
      by simp [missing]⟩

end Accessor

/-! ### In the sample -/

namespace Sample

/-- The way to the note on `b`, who is gone. -/
def goneNote : Accessor :=
  ⟨.ofNames ["notes", "b"],
    [.field "notes" false, .tableEntry (some b) targets [.field "targets" false]], .str⟩

/-- The note that dangles is deleted. -/
theorem goneNote_leaves_nothing :
    SchemaBuilder.build ⟨"Root", schema.types⟩ = .ok schema ∧ schema.DistinctFields ∧
      schema.SoundDomains ∧ schema.Valid tree ∧ schema.resolve goneNote.path = .ok goneNote ∧
      goneNote.checkDeletable = .ok () ∧
      ∃ after, goneNote.delete tree = .ok after ∧ schema.Valid after ∧
        goneNote.get after = .error (.nonexistent goneNote.path) ∧
        goneNote.delete after = .ok after ∧ (after ≠ tree ↔ schema.Stores tree goneNote.path) := by
  have built : SchemaBuilder.build ⟨"Root", schema.types⟩ = .ok schema := rfl
  exact ⟨built, distinctFields, soundDomains, valid, rfl, rfl,
    Accessor.delete_leaves_nothing built distinctFields soundDomains valid rfl rfl⟩

end Sample

end StateTree
