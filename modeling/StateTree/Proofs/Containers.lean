/-
Module: StateTree.Proofs.Containers
Purpose: What is found in a container after something was stored or removed. Storing under a key
  is seen under that key and nowhere else; what a container holds afterwards was there before or is
  what was stored.
-/
import StateTree.Node.Basic

namespace StateTree

namespace Keyed

variable {κ α : Type}

section Lookup

variable [BEq κ] [LawfulBEq κ]

/-- What a lookup finds is an entry. -/
theorem mem_of_lookup {key : κ} {value : α} {entries : List (κ × α)}
    (found : entries.lookup key = some value) : (key, value) ∈ entries := by
  obtain ⟨front, rest, rfl, -⟩ := List.lookup_eq_some_iff.mp found
  simp

/-- A key without an entry is not found. -/
theorem lookup_eq_none_of_not_mem {key : κ} {entries : List (κ × α)}
    (absent : key ∉ keys entries) : entries.lookup key = none := by
  rw [List.lookup_eq_none_iff]
  intro entry member
  have different : key ≠ entry.1 := by
    rintro rfl
    exact absent (List.mem_map_of_mem member)
  simpa using different

/-- A key that is found has an entry. -/
theorem mem_keys_of_lookup {key : κ} {value : α} {entries : List (κ × α)}
    (found : entries.lookup key = some value) : key ∈ keys entries :=
  List.mem_map_of_mem (mem_of_lookup found)

end Lookup

section Put

variable [DecidableEq κ]

/-- What was stored is found. -/
@[simp] theorem lookup_put_self (key : κ) (value : α) (entries : List (κ × α)) :
    (put key value entries).lookup key = some value := by
  induction entries with
  | nil => simp [put]
  | cons entry rest ih =>
      obtain ⟨other, stored⟩ := entry
      by_cases same : other = key
      · simp [put, same]
      · have different : (key == other) = false := beq_false_of_ne (Ne.symm same)
        simp [put, same, List.lookup_cons, different, ih]

/-- Storing under one key changes nothing under another. -/
theorem lookup_put_of_ne {key other : κ} (different : other ≠ key) (value : α)
    (entries : List (κ × α)) : (put key value entries).lookup other = entries.lookup other := by
  have apart : (other == key) = false := beq_false_of_ne different
  induction entries with
  | nil => simp [put, List.lookup_cons, apart]
  | cons entry rest ih =>
      obtain ⟨found, stored⟩ := entry
      by_cases same : found = key
      · subst same
        simp [put, List.lookup_cons, apart]
      · simp [put, same, List.lookup_cons, ih]

/-- What was stored is an entry. -/
theorem mem_put_self (key : κ) (value : α) (entries : List (κ × α)) :
    (key, value) ∈ put key value entries :=
  mem_of_lookup (lookup_put_self key value entries)

/-- An entry after storing is the one stored or was there before. -/
theorem mem_of_mem_put {key : κ} {value : α} {entries : List (κ × α)} {entry : κ × α}
    (member : entry ∈ put key value entries) : entry = (key, value) ∨ entry ∈ entries := by
  induction entries with
  | nil => simpa [put] using member
  | cons first rest ih =>
      obtain ⟨other, stored⟩ := first
      by_cases same : other = key
      · simp only [put, same, if_true, List.mem_cons] at member
        rcases member with same | later
        · exact Or.inl same
        · exact Or.inr (List.mem_cons_of_mem _ later)
      · simp only [put, same, if_false, List.mem_cons] at member
        rcases member with rfl | later
        · exact Or.inr List.mem_cons_self
        · rcases ih later with found | found
          · exact Or.inl found
          · exact Or.inr (List.mem_cons_of_mem _ found)

/-- After removal nothing is found under the key. -/
@[simp] theorem lookup_drop_self (key : κ) (entries : List (κ × α)) :
    (drop key entries).lookup key = none := by
  refine lookup_eq_none_of_not_mem ?_
  simp [drop, keys]

/-- Removing one key changes nothing under another. -/
theorem lookup_drop_of_ne {key other : κ} (different : other ≠ key) (entries : List (κ × α)) :
    (drop key entries).lookup other = entries.lookup other := by
  induction entries with
  | nil => rfl
  | cons entry rest ih =>
      obtain ⟨found, stored⟩ := entry
      unfold drop at ih ⊢
      by_cases same : found = key
      · have apart : (other == found) = false := beq_false_of_ne (same ▸ different)
        simp [same, List.lookup_cons, beq_false_of_ne different, ih]
      · simp [same, List.lookup_cons, ih]

/-- What is left after a removal was there before. -/
theorem mem_of_mem_drop {key : κ} {entries : List (κ × α)} {entry : κ × α}
    (member : entry ∈ drop key entries) : entry ∈ entries :=
  (List.mem_filter.mp member).1

end Put

/-! ### Sorted entries -/

/-- What was stored is found. -/
@[simp] theorem lookup_putSorted_self (key : String) (value : α) (entries : List (String × α)) :
    (putSorted key value entries).lookup key = some value := by
  induction entries with
  | nil => simp [putSorted]
  | cons entry rest ih =>
      obtain ⟨other, stored⟩ := entry
      unfold putSorted
      split
      · simp
      · split
        · simp
        · rename_i different
          simp [List.lookup_cons, beq_false_of_ne different, ih]

/-- Storing under one key changes nothing under another. -/
theorem lookup_putSorted_of_ne {key other : String} (different : other ≠ key) (value : α)
    (entries : List (String × α)) :
    (putSorted key value entries).lookup other = entries.lookup other := by
  have apart : (other == key) = false := beq_false_of_ne different
  induction entries with
  | nil => simp [putSorted, List.lookup_cons, apart]
  | cons entry rest ih =>
      obtain ⟨found, stored⟩ := entry
      unfold putSorted
      split
      · simp [List.lookup_cons, apart]
      · split
        · rename_i same
          subst same
          simp [List.lookup_cons, apart]
        · simp [List.lookup_cons, ih]

/-- A key after storing is the one stored under or was there before. -/
theorem mem_keys_putSorted {key other : String} {value : α} {entries : List (String × α)} :
    other ∈ keys (putSorted key value entries) ↔ other = key ∨ other ∈ keys entries := by
  induction entries with
  | nil => simp [putSorted, keys]
  | cons entry rest ih =>
      obtain ⟨found, stored⟩ := entry
      unfold putSorted
      split
      · simp [keys]
      · split
        · rename_i same
          subst same
          simp [keys]
        · simp only [keys, List.map_cons, List.mem_cons] at ih ⊢
          rw [ih]
          exact or_left_comm

end Keyed

/-! ### Fields -/

namespace Fields

variable {α : Type}

@[simp] theorem get?_insert_self (fields : Fields α) (name : String) (value : α) :
    (fields.insert name value).get? name = some value :=
  Keyed.lookup_putSorted_self name value fields.entries

theorem get?_insert_of_ne {name other : String} (different : other ≠ name) (fields : Fields α)
    (value : α) : (fields.insert name value).get? other = fields.get? other :=
  Keyed.lookup_putSorted_of_ne different value fields.entries

@[simp] theorem get?_erase_self (fields : Fields α) (name : String) :
    (fields.erase name).get? name = none :=
  Keyed.lookup_drop_self name fields.entries

theorem get?_erase_of_ne {name other : String} (different : other ≠ name) (fields : Fields α) :
    (fields.erase name).get? other = fields.get? other :=
  Keyed.lookup_drop_of_ne different fields.entries

end Fields

/-! ### Induction on nodes -/

namespace Node

section Induct

variable {motive : Node → Prop} (leaf : ∀ node : Node, node.isPrimitive = true → motive node)
  (listing : ∀ ids, motive (.listing ids))
  (struct : ∀ fields : Fields Node, (∀ entry ∈ fields.entries, motive entry.2) →
    motive (.struct fields))
  (catalog : ∀ entities : Catalog Node, (∀ entry ∈ entities.entries, motive entry.2) →
    motive (.catalog entities))
  (sideTable : ∀ table : SideTable Node, (∀ entry ∈ table.entries, motive entry.2) →
    motive (.sideTable table))

include leaf listing struct catalog sideTable

set_option linter.unusedSectionVars false

mutual

/-- What holds of a node when it holds of what is in it holds of every node. -/
@[elab_as_elim]
theorem induct : ∀ node, motive node
  | .bool value => leaf (.bool value) rfl
  | .int value => leaf (.int value) rfl
  | .str value => leaf (.str value) rfl
  | .id value => leaf (.id value) rfl
  | .ref target => leaf (.ref target) rfl
  | .listing ids => listing ids
  | .struct ⟨fields⟩ => struct ⟨fields⟩ (induct_fields fields)
  | .catalog ⟨entries⟩ => catalog ⟨entries⟩ (induct_entries entries)
  | .sideTable ⟨domain, entries⟩ => sideTable ⟨domain, entries⟩ (induct_entries entries)
termination_by structural node => node

theorem induct_fields : ∀ fields : List (String × Node), ∀ field ∈ fields, motive field.2
  | [] => fun _ member => by cases member
  | (name, value) :: rest => List.forall_mem_cons.mpr ⟨induct value, induct_fields rest⟩
termination_by structural fields => fields

theorem induct_entries : ∀ entries : List (Identifier × Node), ∀ entry ∈ entries, motive entry.2
  | [] => fun _ member => by cases member
  | (key, value) :: rest => List.forall_mem_cons.mpr ⟨induct value, induct_entries rest⟩
termination_by structural entries => entries

end

end Induct

end Node

/-! ### The identifier of an entity -/

namespace Node

/-- A field other than `id` has no part in the identifier of an entity. -/
theorem entityId?_insert_of_ne {name : String} (different : name ≠ "id") (fields : Fields Node)
    (value : Node) : (struct (fields.insert name value)).entityId? = (struct fields).entityId? := by
  simp [entityId?, Fields.get?_insert_of_ne (Ne.symm different)]

/-- Removing a field other than `id` leaves the identifier of an entity. -/
theorem entityId?_erase_of_ne {name : String} (different : name ≠ "id") (fields : Fields Node) :
    (struct (fields.erase name)).entityId? = (struct fields).entityId? := by
  simp [entityId?, Fields.get?_erase_of_ne (Ne.symm different)]

/-- An entity has the identifier that was stored in its field `id`. -/
theorem entityId?_insert_id {fields : Fields Node} {value : Node} {own : Identifier} :
    (struct (fields.insert "id" value)).entityId? = some own ↔ value = .id own := by
  cases value <;> simp [entityId?]

/-- An entity without a field `id` has no identifier. -/
theorem entityId?_erase_id (fields : Fields Node) :
    (struct (fields.erase "id")).entityId? = none := by
  simp [entityId?]

/-- An entity's identifier is what its field `id` holds. -/
theorem get?_id_of_entityId? {fields : Fields Node} {own : Identifier}
    (entity : (struct fields).entityId? = some own) : fields.get? "id" = some (.id own) := by
  simp only [entityId?] at entity
  split at entity
  · rename_i found held
    cases entity
    exact held
  · cases entity

end Node

end StateTree
