/-
Module: StateTree.Proofs.Views
Purpose: Typed views are sound. The types of values that a tree is read as are built from the plain
  ones and from entities of the application, through catalogs and side tables. Where the kind of
  such a type is accepted, every legal node is read as a value of it; and a value whose catalogs are
  keyed by their entities' own identifiers comes back from its node.
-/
import StateTree.Proofs.Typing
import StateTree.View.Basic

namespace StateTree

/-! ### Types of values -/

/-- A type of entities of the application, and how they are viewed. -/
structure EntityType where
  Carrier : Type
  view : EntityView Carrier

/-- The types of values that nodes are read as. Entities are the application's; what is built on
them is not. -/
inductive ValueType where
  | bool
  | int
  | str
  | identifier
  | reference
  | listing
  | node
  | entity (type : EntityType)
  | catalog (type : EntityType)
  | sideTable (value : ValueType)

namespace EntityType

/-- Reading undoes writing. -/
def ReadsBack (type : EntityType) : Prop :=
  ∀ entity, type.view.ofNode (type.view.toNode entity) = .ok entity

/-- Every legal value of the struct type that the kind names is read as an entity, whose identifier
is that of the node. -/
def ReadsLegal (schema : Schema) (type : EntityType) : Prop :=
  ∃ name, type.view.kind = .struct name ∧ ∀ node, schema.Fits (.struct name) node →
    ∃ entity, type.view.ofNode node = .ok entity ∧
      ∀ own, node.entityId? = some own → type.view.identity entity = own

end EntityType

namespace ValueType

/-- The values of a type. -/
def Carrier : ValueType → Type
  | .bool => Bool
  | .int => Int64
  | .str => String
  | .identifier => Identifier
  | .reference => Path
  | .listing => Listing
  | .node => Node
  | .entity type => type.Carrier
  | .catalog type => Catalog type.Carrier
  | .sideTable value => SideTable value.Carrier

/-- How values of a type are viewed. -/
def view : (type : ValueType) → View type.Carrier
  | .bool => .bool
  | .int => .int
  | .str => .str
  | .identifier => .identifier
  | .reference => .reference
  | .listing => .listing
  | .node => .node
  | .entity type => type.view.toView
  | .catalog type => .catalog type.view
  | .sideTable value => .sideTable value.view

/-- The type of entities that a type is built on, if it is. -/
def entity? : ValueType → Option EntityType
  | .entity type | .catalog type => some type
  | .sideTable value => value.entity?
  | _ => none

/-- Every catalog in a value has its entities under their own identifiers. -/
def OwnKeys : (type : ValueType) → type.Carrier → Prop
  | .catalog type, entities => ∀ entry ∈ entities.entries, type.view.identity entry.2 = entry.1
  | .sideTable value, table => ∀ entry ∈ table.entries, value.OwnKeys entry.2
  | _, _ => True

end ValueType

/-! ### Entries -/

namespace Keyed

variable {κ α β ε : Type} {f : α → Except ε β} {entries : List (κ × α)}

/-- If every value can be converted, so that something holds of it with its key, all are. -/
theorem exists_tryMapValues {P : κ × β → Prop}
    (every : ∀ entry ∈ entries, ∃ value, f entry.2 = .ok value ∧ P (entry.1, value)) :
    ∃ values, tryMapValues f entries = .ok values ∧ ∀ value ∈ values, P value := by
  induction entries with
  | nil => exact ⟨[], rfl, nofun⟩
  | cons entry rest ih =>
      obtain ⟨⟨value, converted, holds⟩, others⟩ := List.forall_mem_cons.mp every
      obtain ⟨values, rest, hold⟩ := ih others
      refine ⟨(entry.1, value) :: values, ?_, List.forall_mem_cons.mpr ⟨holds, hold⟩⟩
      rw [tryMapValues, converted, rest]
      rfl

/-- What is converted back after it was converted is what it was before, in the same order. -/
theorem tryMapValues_mapValues {g : β → α} {values : List (κ × β)}
    (back : ∀ value ∈ values, f (g value.2) = .ok value.2) :
    tryMapValues f (mapValues g values) = .ok values := by
  induction values with
  | nil => rfl
  | cons value rest ih =>
      obtain ⟨here, others⟩ := List.forall_mem_cons.mp back
      have further := ih others
      rw [mapValues] at further
      rw [mapValues, List.map_cons, tryMapValues, here, further]
      rfl

end Keyed

/-! ### Kinds -/

namespace Kind

variable {declared : FieldType}

theorem type_of_accepts_struct {name : String} (accepts : (struct name).accepts declared = true) :
    declared = .struct name := by
  cases declared with
  | struct other => exact congrArg FieldType.struct (beq_iff_eq.mp accepts).symm
  | _ => cases accepts

theorem type_of_accepts_catalog {entry : Kind} (accepts : (catalog entry).accepts declared = true) :
    ∃ entity, declared = .catalog entity ∧ entry.accepts (.struct entity) = true := by
  cases declared with
  | catalog entity => exact ⟨entity, rfl, accepts⟩
  | _ => cases accepts

theorem type_of_accepts_sideTable {value : Kind}
    (accepts : (sideTable value).accepts declared = true) :
    ∃ domain type, declared = .sideTable domain type ∧ value.accepts type = true := by
  cases declared with
  | sideTable domain type => exact ⟨domain, type, rfl, accepts⟩
  | _ => cases accepts

end Kind

/-- A field that may not be absent is there, with a value of its type. -/
theorem Schema.Fits.required {schema : Schema} {type : String} {struct : StructDef}
    {fields : Fields Node} {declared : FieldDef}
    (fits : schema.Fits (.struct type) (.struct fields)) (found : schema.struct? type = some struct)
    (member : declared ∈ struct.fields) (kept : declared.presence.isDeletable = false) :
    ∃ value, fields.get? declared.name = some value ∧ schema.Fits declared.type value := by
  obtain ⟨other, same, fieldsFit, -⟩ := fits_struct_iff.mp fits
  cases found.symm.trans same
  cases held : fields.get? declared.name with
  | none => cases kept.symm.trans ((fieldsFit declared member).2 held)
  | some value => exact ⟨value, rfl, (fieldsFit declared member).1 value held⟩

/-! ### Reading and writing -/

namespace View

variable {α : Type}

/-- A catalog is read when each entity is, as one with its key for its identifier. -/
theorem catalog_ofNode {view : EntityView α} {entities : Catalog Node}
    (every : ∀ entry ∈ entities.entries,
      ∃ entity, view.ofNode entry.2 = .ok entity ∧ view.identity entity = entry.1) :
    ∃ typed : Catalog α, (catalog view).ofNode (.catalog entities) = .ok typed ∧
      ∀ entry ∈ typed.entries, view.identity entry.2 = entry.1 := by
  obtain ⟨typed, read, own⟩ :=
    Keyed.exists_tryMapValues (P := fun entry => view.identity entry.2 = entry.1) every
  have unmatched : typed.find? (fun entry => view.identity entry.2 != entry.1) = none :=
    List.find?_eq_none.mpr fun entry member => by simp [own entry member]
  refine ⟨⟨typed⟩, ?_, own⟩
  simp [catalog, Node.asCatalog, Catalog.tryMap, read, unmatched]

/-- A catalog comes back from its node when its entities do and have their keys for their
identifiers. -/
theorem catalog_ofNode_toNode {view : EntityView α} {typed : Catalog α}
    (back : ∀ entity, view.ofNode (view.toNode entity) = .ok entity)
    (own : ∀ entry ∈ typed.entries, view.identity entry.2 = entry.1) :
    (catalog view).ofNode ((catalog view).toNode typed) = .ok typed := by
  have read : Keyed.tryMapValues view.ofNode (Keyed.mapValues view.toNode typed.entries) =
      .ok typed.entries :=
    Keyed.tryMapValues_mapValues fun value _ => back value.2
  have unmatched : typed.entries.find? (fun entry => view.identity entry.2 != entry.1) = none :=
    List.find?_eq_none.mpr fun entry member => by simp [own entry member]
  simp [catalog, Node.asCatalog, Catalog.map, Catalog.tryMap, read, unmatched]

/-- A side table is read when each value is. -/
theorem sideTable_ofNode {view : View α} {table : SideTable Node} {P : α → Prop}
    (every : ∀ entry ∈ table.entries, ∃ value, view.ofNode entry.2 = .ok value ∧ P value) :
    ∃ typed : SideTable α, (sideTable view).ofNode (.sideTable table) = .ok typed ∧
      ∀ entry ∈ typed.entries, P entry.2 := by
  obtain ⟨typed, read, hold⟩ := Keyed.exists_tryMapValues (P := fun entry => P entry.2) every
  refine ⟨⟨table.domain, typed⟩, ?_, hold⟩
  simp [sideTable, Node.asSideTable, SideTable.tryMap, read]

/-- A side table comes back from its node when its values do. -/
theorem sideTable_ofNode_toNode {view : View α} {typed : SideTable α}
    (back : ∀ entry ∈ typed.entries, view.ofNode (view.toNode entry.2) = .ok entry.2) :
    (sideTable view).ofNode ((sideTable view).toNode typed) = .ok typed := by
  have read := Keyed.tryMapValues_mapValues back
  simp [sideTable, Node.asSideTable, SideTable.map, SideTable.tryMap, read]

end View

namespace ValueType

/-- Where the kind of a type is accepted, legal nodes are read as values of the type, whose catalogs
are keyed by their entities' own identifiers. By induction on the type: its kind tells the declared
type, and that the shape of the node. -/
theorem exists_ofNode {schema : Schema} {type : ValueType}
    (reads : ∀ entity ∈ type.entity?, entity.ReadsLegal schema) {declared : FieldType} {node : Node}
    (accepts : type.view.kind.accepts declared = true) (fits : schema.Fits declared node) :
    ∃ value, type.view.ofNode node = .ok value ∧ type.OwnKeys value := by
  induction type generalizing declared node with
  | bool | int | str | identifier | reference =>
      -- One type is accepted, and its nodes have one shape.
      cases declared <;> cases accepts
      cases node <;> cases fits
      exact ⟨_, rfl, trivial⟩
  | listing =>
      cases declared <;> cases accepts
      obtain ⟨listing, rfl⟩ := fits.listing_inv
      exact ⟨listing, rfl, trivial⟩
  | node => exact ⟨node, rfl, trivial⟩
  | entity entity =>
      obtain ⟨name, kind, read⟩ := reads entity rfl
      change entity.view.kind.accepts declared = true at accepts
      rw [kind] at accepts
      obtain rfl := Kind.type_of_accepts_struct accepts
      obtain ⟨value, found, -⟩ := read node fits
      exact ⟨value, found, trivial⟩
  | catalog entity =>
      obtain ⟨name, kind, read⟩ := reads entity rfl
      obtain ⟨type, rfl, entry⟩ := Kind.type_of_accepts_catalog accepts
      rw [kind] at entry
      cases Kind.type_of_accepts_struct entry
      obtain ⟨entities, rfl⟩ := fits.catalog_inv
      refine View.catalog_ofNode fun entry member => ?_
      obtain ⟨legal, own⟩ := Schema.fits_catalog_iff.mp fits entry member
      obtain ⟨value, found, same⟩ := read entry.2 legal
      exact ⟨value, found, same entry.1 own⟩
  | sideTable value ih =>
      obtain ⟨domain, type, rfl, accepts⟩ := Kind.type_of_accepts_sideTable accepts
      obtain ⟨table, rfl⟩ := fits.sideTable_inv
      have legal := (Schema.fits_sideTable_iff.mp fits).2
      exact View.sideTable_ofNode fun entry member => ih reads accepts (legal entry member)

/-- A value whose catalogs are keyed by their entities' own identifiers comes back from its node. -/
theorem ofNode_toNode {type : ValueType} (back : ∀ entity ∈ type.entity?, entity.ReadsBack)
    {value : type.Carrier} (own : type.OwnKeys value) :
    type.view.ofNode (type.view.toNode value) = .ok value := by
  induction type with
  | bool | int | str | identifier | reference | listing | node => rfl
  | entity entity => exact back entity rfl value
  | catalog entity => exact View.catalog_ofNode_toNode (back entity rfl) own
  | sideTable inner ih =>
      exact View.sideTable_ofNode_toNode fun entry member => ih back (own entry member)

/-- Views are sound. If the kind of a type is accepted by a declared type, then every node that is
legal there is read as a value, in which catalogs are keyed by their entities' own identifiers.
Every value with such keys is read back from its node as it is, entries in their order. -/
theorem view_sound (type : ValueType) (back : ∀ entity ∈ type.entity?, entity.ReadsBack) :
    (∀ schema : Schema, (∀ entity ∈ type.entity?, entity.ReadsLegal schema) →
      ∀ declared node path, type.view.kind.accepts declared = true →
        schema.validateAt declared node path = .ok () →
          ∃ value, type.view.ofNode node = .ok value ∧ type.OwnKeys value) ∧
      ∀ value, type.OwnKeys value → type.view.ofNode (type.view.toNode value) = .ok value := by
  refine ⟨fun schema reads declared node path accepts legal => ?_, fun value own => ?_⟩
  · exact exists_ofNode reads accepts (Schema.validateAt_eq_ok_iff.mp legal)
  · exact ofNode_toNode back own

end ValueType

/-! ### A sample -/

namespace Sample

/-- An entity with a label. -/
structure Labelled where
  id : Identifier
  label : String

/-- Entities with a label as structs of the type `Label`. -/
def labelledEntity : EntityType where
  Carrier := Labelled
  view :=
    { kind := .struct "Label"
      toNode := fun entity =>
        .struct ((Fields.empty.insert "id" (.id entity.id)).insert "label" (.str entity.label))
      ofNode := fun node => do
        let fields ← node.asStruct
        let id ← (← fields.require "id").asId
        let label ← (← fields.require "label").asStr
        pure ⟨id, label⟩
      identity := Labelled.id }

theorem labelledEntity_readsBack : labelledEntity.ReadsBack := by
  rintro ⟨id, label⟩
  have other : "id" ≠ "label" := by decide
  simp [labelledEntity, Node.asStruct, Fields.require, Fields.get?_insert_of_ne other, Node.asId,
    Node.asStr]

def labels : Schema :=
  ⟨"Label", [("Label", ⟨"Label", [⟨"id", .identifier, .required⟩, ⟨"label", .str, .required⟩]⟩)]⟩

theorem labelledEntity_readsLegal : labelledEntity.ReadsLegal labels := by
  refine ⟨"Label", rfl, fun node fits => ?_⟩
  obtain ⟨fields, rfl⟩ := fits.struct_inv
  obtain ⟨own, held, first⟩ := fits.required rfl List.mem_cons_self rfl
  obtain ⟨text, shown, second⟩ :=
    fits.required rfl (List.mem_cons_of_mem _ List.mem_cons_self) rfl
  obtain ⟨id, rfl⟩ := first.identifier_inv
  obtain ⟨label, rfl⟩ : ∃ label, text = .str label := by
    cases text <;> cases second
    exact ⟨_, rfl⟩
  refine ⟨⟨id, label⟩, ?_, fun other same => ?_⟩
  · simp [labelledEntity, Node.asStruct, Fields.require, held, shown, Node.asId, Node.asStr]
  · cases held.symm.trans (Node.get?_id_of_entityId? same)
    rfl

/-- Catalogs of labelled entities by target. -/
def shelves : ValueType := .sideTable (.catalog labelledEntity)

/-- Two entities, the later one first, for a target that is gone. -/
def shelvedLabels : SideTable (Catalog Labelled) :=
  ⟨targets, [(b, ⟨[(b, ⟨b, "second"⟩), (a, ⟨a, "first"⟩)]⟩)]⟩

/-- What is legal as catalogs below a side table is read, and entities come back as they were. -/
theorem shelves_view_sound :
    labelledEntity.ReadsBack ∧ labelledEntity.ReadsLegal labels ∧
      shelves.view.kind.accepts (.sideTable targets (.catalog "Label")) = true ∧
      labels.validateAt (.sideTable targets (.catalog "Label")) (shelves.view.toNode shelvedLabels)
        .root = .ok () ∧
      (∃ value, shelves.view.ofNode (shelves.view.toNode shelvedLabels) = .ok value ∧
        shelves.OwnKeys value) ∧
      shelves.OwnKeys shelvedLabels ∧
      shelves.view.ofNode (shelves.view.toNode shelvedLabels) = .ok shelvedLabels := by
  have back : ∀ entity ∈ shelves.entity?, entity.ReadsBack := by
    rintro entity ⟨⟩
    exact labelledEntity_readsBack
  have reads : ∀ entity ∈ shelves.entity?, entity.ReadsLegal labels := by
    rintro entity ⟨⟩
    exact labelledEntity_readsLegal
  have accepts : shelves.view.kind.accepts (.sideTable targets (.catalog "Label")) = true := by
    decide +kernel
  have legal : labels.validateAt (.sideTable targets (.catalog "Label"))
      (shelves.view.toNode shelvedLabels) .root = .ok () := by
    decide +kernel
  have own : shelves.OwnKeys shelvedLabels := by
    change ∀ entry ∈ shelvedLabels.entries, ∀ entity ∈ entry.2.entries, entity.2.id = entity.1
    decide
  obtain ⟨sound, comesBack⟩ := shelves.view_sound back
  exact ⟨labelledEntity_readsBack, labelledEntity_readsLegal, accepts, legal,
    sound labels reads _ _ _ accepts legal, own, comesBack shelvedLabels own⟩

end Sample

end StateTree
