/-
Module: StateTree.Proofs.Typing
Purpose: What a legal value of a type is, shape by shape. The path given to a check serves its
  messages only, so whether a node fits a type is a matter of the two alone.
-/
import StateTree.Proofs.Containers
import StateTree.Schema.Validate

namespace StateTree

/-! ### Results of steps -/

@[simp] theorem ok_bind {ε α β : Type} (value : α) (next : α → Except ε β) :
    Except.ok value >>= next = next value := rfl

@[simp] theorem error_bind {ε α β : Type} (error : ε) (next : α → Except ε β) :
    Except.error error >>= next = .error error := rfl

@[simp] theorem throw_eq_error {ε α : Type} (error : ε) :
    (throw error : Except ε α) = .error error := rfl

@[simp] theorem pure_eq_ok {ε α : Type} (value : α) : (pure value : Except ε α) = .ok value := rfl

/-- A sequence of two steps succeeds when the first does and the second does after it. -/
theorem bind_eq_ok_iff {ε α β : Type} {first : Except ε α} {next : α → Except ε β} {result : β} :
    first >>= next = .ok result ↔ ∃ value, first = .ok value ∧ next value = .ok result := by
  cases first <;> simp

/-- A result that holds a value is that value. -/
theorem eq_ok_of_toOption {ε α : Type} {outcome : Except ε α} {value : α}
    (holds : outcome.toOption = some value) : outcome = .ok value := by
  cases outcome with
  | ok found => exact congrArg Except.ok (Option.some.inj holds)
  | error error => cases holds

/-- Whether a check passes can be computed. -/
instance decidablePasses {ε : Type} (outcome : Except ε Unit) : Decidable (outcome = .ok ()) :=
  match outcome with
  | .ok () => isTrue rfl
  | .error _ => isFalse fun same => by cases same

namespace Schema

/-! ### The checks of a struct -/

/-- The check of a field is the check of the node that is there. -/
theorem lookup_fieldChecks (schema : Schema) (name : String) (fields : List (String × Node)) :
    (fieldChecks schema fields).lookup name = (fields.lookup name).map schema.check := by
  induction fields with
  | nil => rfl
  | cons field rest ih =>
      obtain ⟨other, value⟩ := field
      cases same : name == other <;> simp [fieldChecks, List.lookup_cons, same, ih]

/-- The declared fields of a struct pass when each that is there passes and each that is not may
be absent. -/
theorem checkDeclared_eq_ok_iff {type : String} {checks : List (String × Check)} {path : Path}
    {declared : List FieldDef} :
    checkDeclared type checks path declared = .ok () ↔
      ∀ field ∈ declared,
        (∀ check, checks.lookup field.name = some check →
          check field.type (path.field field.name) = .ok ()) ∧
        (checks.lookup field.name = none → field.presence.isDeletable = true) := by
  induction declared with
  | nil => simp [checkDeclared]
  | cons field rest ih =>
      rw [List.forall_mem_cons, ← ih, checkDeclared]
      cases found : checks.lookup field.name with
      | none =>
          cases deletable : field.presence.isDeletable <;>
            simp
      | some check =>
          cases passed : check field.type (path.field field.name) <;>
            simp [passed]

/-- The fields of a struct are known when each is declared. -/
theorem checkKnown_eq_ok_iff {struct : StructDef} (type : String) (path : Path)
    {names : List String} :
    checkKnown struct type path names = .ok () ↔
      ∀ name ∈ names, (struct.field? name).isSome = true := by
  induction names with
  | nil => simp [checkKnown]
  | cons name rest ih =>
      rw [List.forall_mem_cons, ← ih, checkKnown]
      split <;> simp_all

/-- A struct type is required successfully when it is defined. -/
theorem requireStruct_eq_ok_iff {schema : Schema} {name : String} {struct : StructDef} :
    schema.requireStruct name = .ok struct ↔ schema.struct? name = some struct := by
  unfold requireStruct
  cases schema.struct? name <;> simp

/-- A check of a struct, spelled out. -/
theorem check_struct_eq_ok_iff {schema : Schema} {fields : Fields Node} {type : String}
    {path : Path} :
    schema.check (.struct fields) (.struct type) path = .ok () ↔
      ∃ struct, schema.struct? type = some struct ∧
        (∀ field ∈ struct.fields,
          (∀ value, fields.get? field.name = some value →
            schema.check value field.type (path.field field.name) = .ok ()) ∧
          (fields.get? field.name = none → field.presence.isDeletable = true)) ∧
        ∀ name ∈ Keyed.keys fields.entries, (struct.field? name).isSome = true := by
  obtain ⟨entries⟩ := fields
  have declared (struct : StructDef) :
      checkDeclared type (fieldChecks schema entries) path struct.fields = .ok () ↔
        ∀ field ∈ struct.fields,
          (∀ value, entries.lookup field.name = some value →
            schema.check value field.type (path.field field.name) = .ok ()) ∧
          (entries.lookup field.name = none → field.presence.isDeletable = true) := by
    simp [checkDeclared_eq_ok_iff, lookup_fieldChecks]
  cases found : schema.requireStruct type with
  | error error =>
      have absent (struct : StructDef) : schema.struct? type ≠ some struct := by
        intro present
        rw [← requireStruct_eq_ok_iff, found] at present
        cases present
      simp [check, found, absent]
  | ok struct =>
      have present : schema.struct? type = some struct := requireStruct_eq_ok_iff.mp found
      simp only [check, found, ok_bind, present, Option.some.injEq, exists_eq_left', Fields.get?]
      rw [← declared struct, ← checkKnown_eq_ok_iff type path]
      cases checkDeclared type (fieldChecks schema entries) path struct.fields <;> simp

/-! ### The checks of containers -/

/-- The entities of a catalog pass when each fits and carries its key. -/
theorem checkEntities_eq_ok_iff {schema : Schema} {entries : List (Identifier × Node)}
    {entity : String} {path : Path} :
    schema.checkEntities entries entity path = .ok () ↔
      ∀ entry ∈ entries,
        schema.check entry.2 (.struct entity) (path.entry entry.1) = .ok () ∧
          entry.2.entityId? = some entry.1 := by
  induction entries with
  | nil => simp [checkEntities]
  | cons entry rest ih =>
      obtain ⟨key, value⟩ := entry
      rw [List.forall_mem_cons, ← ih, checkEntities]
      cases checked : schema.check value (.struct entity) (path.entry key) with
      | error error => simp
      | ok passed =>
          by_cases own : value.entityId? = some key <;>
            simp [own]

/-- The values of a side table pass when each fits. -/
theorem checkValues_eq_ok_iff {schema : Schema} {entries : List (Identifier × Node)}
    {type : FieldType} {path : Path} :
    schema.checkValues entries type path = .ok () ↔
      ∀ entry ∈ entries, schema.check entry.2 type (path.entry entry.1) = .ok () := by
  induction entries with
  | nil => simp [checkValues]
  | cons entry rest ih =>
      obtain ⟨key, value⟩ := entry
      rw [List.forall_mem_cons, ← ih, checkValues]
      cases checked : schema.check value type (path.entry key) <;> simp

/-! ### The path of a check -/

mutual

/-- Whether a check passes does not depend on the path. -/
theorem check_eq_ok_of_path (schema : Schema) :
    ∀ (node : Node) (type : FieldType) (path other : Path),
      schema.check node type path = .ok () → schema.check node type other = .ok ()
  | .bool _, type, _, _, passed => by cases type <;> simp [check] at passed ⊢
  | .int _, type, _, _, passed => by cases type <;> simp [check] at passed ⊢
  | .str _, type, _, _, passed => by cases type <;> simp [check] at passed ⊢
  | .id _, type, _, _, passed => by cases type <;> simp [check] at passed ⊢
  | .ref _, type, _, _, passed => by cases type <;> simp [check] at passed ⊢
  | .listing _, type, _, _, passed => by
      cases type <;> simp [check] at passed ⊢
      exact passed
  | .struct ⟨fields⟩, type, path, other, passed => by
      cases type with
      | struct name =>
          rw [check_struct_eq_ok_iff] at passed ⊢
          obtain ⟨struct, found, declared, known⟩ := passed
          refine ⟨struct, found, ?_, known⟩
          intro field member
          refine ⟨?_, (declared field member).2⟩
          intro value held
          exact field_check_eq_ok_of_path schema fields (field.name, value)
            (Keyed.mem_of_lookup held) field.type _ _ ((declared field member).1 value held)
      | _ => simp [check] at passed
  | .catalog ⟨entries⟩, type, path, other, passed => by
      cases type with
      | catalog entity =>
          simp only [check, checkEntities_eq_ok_iff] at passed ⊢
          intro entry member
          refine ⟨?_, (passed entry member).2⟩
          exact entry_check_eq_ok_of_path schema entries entry member _ _ _ (passed entry member).1
      | _ => simp [check] at passed
  | .sideTable ⟨domain, entries⟩, type, path, other, passed => by
      cases type with
      | sideTable declared value =>
          simp only [check] at passed ⊢
          split at passed
          · rename_i same
            simp only [same, if_true, checkValues_eq_ok_iff] at passed ⊢
            intro entry member
            exact entry_check_eq_ok_of_path schema entries entry member _ _ _
              (passed entry member)
          · cases passed
      | _ => simp [check] at passed
termination_by structural node => node

/-- Whether the check of a field passes does not depend on the path. -/
theorem field_check_eq_ok_of_path (schema : Schema) :
    ∀ (fields : List (String × Node)) (field : String × Node), field ∈ fields →
      ∀ (type : FieldType) (path other : Path),
        schema.check field.2 type path = .ok () → schema.check field.2 type other = .ok ()
  | [], _, member, _, _, _, _ => by cases member
  | (_, value) :: rest, field, member, type, path, other, passed => by
      rcases List.mem_cons.mp member with rfl | later
      · exact check_eq_ok_of_path schema value type path other passed
      · exact field_check_eq_ok_of_path schema rest field later type path other passed
termination_by structural fields => fields

/-- Whether the check of an entry passes does not depend on the path. -/
theorem entry_check_eq_ok_of_path (schema : Schema) :
    ∀ (entries : List (Identifier × Node)) (entry : Identifier × Node), entry ∈ entries →
      ∀ (type : FieldType) (path other : Path),
        schema.check entry.2 type path = .ok () → schema.check entry.2 type other = .ok ()
  | [], _, member, _, _, _, _ => by cases member
  | (_, value) :: rest, entry, member, type, path, other, passed => by
      rcases List.mem_cons.mp member with rfl | later
      · exact check_eq_ok_of_path schema value type path other passed
      · exact entry_check_eq_ok_of_path schema rest entry later type path other passed
termination_by structural entries => entries

end

/-! ### Fitting a type -/

/-- A node is a legal value of a type. -/
def Fits (schema : Schema) (type : FieldType) (node : Node) : Prop :=
  schema.validateAt type node .root = .ok ()

instance (schema : Schema) (type : FieldType) (node : Node) : Decidable (schema.Fits type node) :=
  decidablePasses _

instance (schema : Schema) (root : Node) : Decidable (schema.Valid root) := decidablePasses _

/-- A check passes, whatever its path, exactly for what fits. -/
theorem validateAt_eq_ok_iff {schema : Schema} {type : FieldType} {node : Node} {path : Path} :
    schema.validateAt type node path = .ok () ↔ schema.Fits type node :=
  ⟨schema.check_eq_ok_of_path node type path .root, schema.check_eq_ok_of_path node type .root path⟩

/-- A tree is valid when it fits the type of the root. -/
theorem valid_iff_fits {schema : Schema} {root : Node} :
    schema.Valid root ↔ schema.Fits schema.rootType root := Iff.rfl

theorem fits_struct_iff {schema : Schema} {name : String} {fields : Fields Node} :
    schema.Fits (.struct name) (.struct fields) ↔
      ∃ struct, schema.struct? name = some struct ∧
        (∀ field ∈ struct.fields,
          (∀ value, fields.get? field.name = some value → schema.Fits field.type value) ∧
          (fields.get? field.name = none → field.presence.isDeletable = true)) ∧
        ∀ name ∈ Keyed.keys fields.entries, (struct.field? name).isSome = true := by
  simp only [Fits, validateAt, check_struct_eq_ok_iff]
  refine exists_congr fun struct => and_congr_right fun _ => and_congr_left fun _ => ?_
  refine forall₂_congr fun field _ => and_congr_left fun _ => forall₂_congr fun value _ => ?_
  exact validateAt_eq_ok_iff

theorem fits_catalog_iff {schema : Schema} {entity : String} {entities : Catalog Node} :
    schema.Fits (.catalog entity) (.catalog entities) ↔
      ∀ entry ∈ entities.entries,
        schema.Fits (.struct entity) entry.2 ∧ entry.2.entityId? = some entry.1 := by
  obtain ⟨entries⟩ := entities
  simp only [Fits, validateAt, check, checkEntities_eq_ok_iff]
  refine forall₂_congr fun entry _ => and_congr_left fun _ => ?_
  exact validateAt_eq_ok_iff

theorem fits_listing_iff {schema : Schema} {domain : Path} {listing : Listing} :
    schema.Fits (.listing domain) (.listing listing) ↔ listing.domain = domain := by
  simp [Fits, validateAt, check]

theorem fits_sideTable_iff {schema : Schema} {domain : Path} {value : FieldType}
    {table : SideTable Node} :
    schema.Fits (.sideTable domain value) (.sideTable table) ↔
      table.domain = domain ∧ ∀ entry ∈ table.entries, schema.Fits value entry.2 := by
  obtain ⟨found, entries⟩ := table
  simp only [Fits, validateAt, check]
  split
  · rename_i same
    simp only [same, true_and, checkValues_eq_ok_iff]
    exact forall₂_congr fun entry _ => validateAt_eq_ok_iff
  · rename_i different
    simp [different]

/-! ### The shape that a type calls for -/

theorem Fits.identifier_inv {schema : Schema} {node : Node}
    (fits : schema.Fits .identifier node) : ∃ id, node = .id id := by
  cases node <;> simp [Fits, validateAt, check] at fits ⊢

theorem Fits.struct_inv {schema : Schema} {name : String} {node : Node}
    (fits : schema.Fits (.struct name) node) : ∃ fields, node = .struct fields := by
  cases node <;> simp [Fits, validateAt, check] at fits ⊢

theorem Fits.catalog_inv {schema : Schema} {entity : String} {node : Node}
    (fits : schema.Fits (.catalog entity) node) : ∃ entities, node = .catalog entities := by
  cases node <;> simp [Fits, validateAt, check] at fits ⊢

theorem Fits.listing_inv {schema : Schema} {domain : Path} {node : Node}
    (fits : schema.Fits (.listing domain) node) : ∃ listing, node = .listing listing := by
  cases node <;> simp [Fits, validateAt, check] at fits ⊢

theorem Fits.sideTable_inv {schema : Schema} {domain : Path} {value : FieldType} {node : Node}
    (fits : schema.Fits (.sideTable domain value) node) : ∃ table, node = .sideTable table := by
  cases node <;> simp [Fits, validateAt, check] at fits ⊢

/-- A struct fits struct types only. -/
theorem Fits.type_of_struct {schema : Schema} {type : FieldType} {fields : Fields Node}
    (fits : schema.Fits type (.struct fields)) : ∃ name, type = .struct name := by
  cases type <;> simp [Fits, validateAt, check] at fits ⊢

/-- A catalog fits catalog types only. -/
theorem Fits.type_of_catalog {schema : Schema} {type : FieldType} {entities : Catalog Node}
    (fits : schema.Fits type (.catalog entities)) : ∃ entity, type = .catalog entity := by
  cases type <;> simp [Fits, validateAt, check] at fits ⊢

/-- A listing fits listing types only. -/
theorem Fits.type_of_listing {schema : Schema} {type : FieldType} {listing : Listing}
    (fits : schema.Fits type (.listing listing)) : ∃ domain, type = .listing domain := by
  cases type <;> simp [Fits, validateAt, check] at fits ⊢

/-- A side table fits side table types only. -/
theorem Fits.type_of_sideTable {schema : Schema} {type : FieldType} {table : SideTable Node}
    (fits : schema.Fits type (.sideTable table)) :
    ∃ domain value, type = .sideTable domain value := by
  cases type <;> simp [Fits, validateAt, check] at fits ⊢

/-- The field of a struct fits its declaration. -/
theorem Fits.field {schema : Schema} {type : String} {struct : StructDef} {fields : Fields Node}
    {declared : FieldDef} {value : Node} (fits : schema.Fits (.struct type) (.struct fields))
    (found : schema.struct? type = some struct) (member : declared ∈ struct.fields)
    (held : fields.get? declared.name = some value) : schema.Fits declared.type value := by
  obtain ⟨other, same, fieldsFit, -⟩ := fits_struct_iff.mp fits
  rw [found] at same
  cases same
  exact (fieldsFit declared member).1 value held

end Schema

/-! ### A sample

A catalog of targets, a listing and a side table over it, and an optional field below each target.
-/

namespace Sample

/-- The catalog that the listing and the side table of the sample refer into. -/
def targets : Path := .ofNames ["targets"]

def target : StructDef :=
  ⟨"Target", [⟨"id", .identifier, .required⟩, ⟨"label", .str, .optional⟩]⟩

def root : StructDef :=
  ⟨"Root", [⟨"targets", .catalog "Target", .required⟩, ⟨"chosen", .listing targets, .required⟩,
    ⟨"notes", .sideTable targets .str, .required⟩, ⟨"title", .str, .polyfill (.str "untitled")⟩]⟩

def schema : Schema := ⟨"Root", [("Root", root), ("Target", target)]⟩

def a : Identifier := ⟨"a", by decide⟩

def b : Identifier := ⟨"b", by decide⟩

/-- A tree with one target, which is chosen and has a note; the note of `b` dangles. -/
def tree : Node :=
  .struct ⟨[("chosen", .listing ⟨targets, [a]⟩),
    ("notes", .sideTable ⟨targets, [(a, .str "first"), (b, .str "gone")]⟩),
    ("targets", .catalog ⟨[(a, .struct ⟨[("id", .id a)]⟩)]⟩),
    ("title", .str "sample")]⟩

theorem valid : schema.Valid tree := by
  decide +kernel

end Sample

end StateTree
