/-
Module: StateTree.Proofs.Polyfilling
Purpose: What completing an old tree does. Whatever is there stays, with its keys in their order;
  what is added are missing fields with their defaults, at any depth; and the result is valid
  exactly for the trees that are valid up to such fields.
-/
import StateTree.Proofs.Completion

namespace StateTree

/-- The default of a field, where it has one. -/
def Presence.default? : Presence → Option Node
  | .polyfill value => some value
  | _ => none

/-! ### Schemas for old trees -/

/-- A field with a default may be missing. -/
def Presence.lenient : Presence → Presence
  | .polyfill _ => .optional
  | presence => presence

def FieldDef.lenient (field : FieldDef) : FieldDef :=
  ⟨field.name, field.type, field.presence.lenient⟩

def StructDef.lenient (struct : StructDef) : StructDef :=
  ⟨struct.name, struct.fields.map FieldDef.lenient⟩

/-- The schema under which a tree may lack every field that has a default, and has to be valid
otherwise. -/
def Schema.lenient (schema : Schema) : Schema :=
  ⟨schema.root, Keyed.mapValues StructDef.lenient schema.types⟩

theorem Presence.isDeletable_lenient (presence : Presence) :
    presence.lenient.isDeletable = true ↔
      presence.isDeletable = true ∨ ∃ value, presence = .polyfill value := by
  cases presence <;> simp [lenient, isDeletable]

theorem StructDef.isSome_field?_lenient (struct : StructDef) (name : String) :
    (struct.lenient.field? name).isSome = (struct.field? name).isSome := by
  simp only [field?, lenient, List.find?_map, Option.isSome_map]
  rfl

namespace Keyed

variable {κ α β : Type}

theorem lookup_mapValues [BEq κ] [LawfulBEq κ] (f : α → β) (key : κ) (entries : List (κ × α)) :
    (mapValues f entries).lookup key = (entries.lookup key).map f := by
  induction entries with
  | nil => rfl
  | cons entry rest ih =>
      obtain ⟨other, value⟩ := entry
      unfold mapValues at ih ⊢
      cases same : key == other <;> simp [List.lookup_cons, same, ih]

theorem isSome_lookup_iff [BEq κ] [LawfulBEq κ] {key : κ} {entries : List (κ × α)} :
    (entries.lookup key).isSome = true ↔ key ∈ keys entries := by
  constructor
  · intro there
    obtain ⟨value, found⟩ := Option.isSome_iff_exists.mp there
    exact mem_keys_of_lookup found
  · intro member
    by_contra absent
    rw [Bool.not_eq_true, Option.isSome_eq_false_iff, Option.isNone_iff_eq_none,
      List.lookup_eq_none_iff] at absent
    obtain ⟨entry, there, rfl⟩ := List.mem_map.mp member
    simpa using absent entry there

/-- Storing a value leaves the keys that were there, in their order. -/
theorem keys_sublist_putSorted (key : String) (value : α) (entries : List (String × α)) :
    (keys entries).Sublist (keys (putSorted key value entries)) := by
  induction entries with
  | nil => exact List.nil_sublist _
  | cons entry rest ih =>
      obtain ⟨other, stored⟩ := entry
      unfold putSorted
      split
      · exact List.sublist_cons_self _ _
      · split
        · rename_i same
          subst same
          exact List.Sublist.refl _
        · exact ih.cons_cons other

/-- Two lists of entries under the same keys satisfy their conditions together if that holds entry
by entry. -/
theorem forall_mem_iff_of_zip {before after : List (κ × α)} {P Q : κ × α → Prop}
    (same : keys after = keys before)
    (each : ∀ pair ∈ before.zip after, pair.2.1 = pair.1.1 → (Q pair.2 ↔ P pair.1)) :
    (∀ entry ∈ after, Q entry) ↔ ∀ entry ∈ before, P entry := by
  induction before generalizing after with
  | nil =>
      rw [List.map_eq_nil_iff.mp same]
      simp
  | cons first rest ih =>
      cases after with
      | nil => cases same
      | cons other more =>
          obtain ⟨key, keys⟩ := List.cons.inj same
          obtain ⟨here, later⟩ := List.forall_mem_cons.mp each
          rw [List.forall_mem_cons, List.forall_mem_cons, here key, ih keys later]

end Keyed

namespace Schema

variable {schema : Schema}

theorem struct?_lenient (schema : Schema) (name : String) :
    schema.lenient.struct? name = (schema.struct? name).map StructDef.lenient :=
  Keyed.lookup_mapValues _ _ _

/-- A struct that may lack fields with defaults. -/
theorem fits_lenient_struct_iff {name : String} {fields : Fields Node} {struct : StructDef}
    (found : schema.struct? name = some struct) :
    schema.lenient.Fits (.struct name) (.struct fields) ↔
      (∀ field ∈ struct.fields,
        (∀ value, fields.get? field.name = some value →
          schema.lenient.Fits field.type value) ∧
        (fields.get? field.name = none →
          field.presence.isDeletable = true ∨ ∃ value, field.presence = .polyfill value)) ∧
      ∀ name ∈ Keyed.keys fields.entries, (struct.field? name).isSome = true := by
  simp only [fits_struct_iff, struct?_lenient, found, Option.map_some, Option.some.injEq,
    exists_eq_left', StructDef.isSome_field?_lenient]
  simp only [StructDef.lenient, List.forall_mem_map, FieldDef.lenient,
    Presence.isDeletable_lenient]

/-! ### What completing may do -/

/-- Whether a node has parts whose types are declared by its own. -/
def opens (schema : Schema) : FieldType → Node → Bool
  | .struct name, .struct _ => (schema.struct? name).isSome
  | .catalog _, .catalog _ => true
  | .sideTable _ _, .sideTable _ => true
  | _, _ => false

/-- What completing makes of a node of a declared type. The fields of a struct that are there stay,
in their order, each completed if it is declared; of the others those with a default are added. The
entries of a container are completed in their places. Everything else is left alone. -/
inductive Completes (schema : Schema) : FieldType → Node → Node → Prop where
  | struct {name : String} {struct : StructDef} {before after : Fields Node}
      (found : schema.struct? name = some struct)
      (order : (Keyed.keys before.entries).Sublist (Keyed.keys after.entries))
      (kept : ∀ name, struct.field? name = none → after.get? name = before.get? name)
      (added : ∀ field ∈ struct.fields, before.get? field.name = none →
        after.get? field.name = field.presence.default?)
      (below : ∀ field ∈ struct.fields, ∀ value completed, before.get? field.name = some value →
        after.get? field.name = some completed → Completes schema field.type value completed) :
      Completes schema (.struct name) (.struct before) (.struct after)
  | catalog {entity : String} {before after : Catalog Node}
      (same : Keyed.keys after.entries = Keyed.keys before.entries)
      (below : ∀ pair ∈ before.entries.zip after.entries,
        Completes schema (.struct entity) pair.1.2 pair.2.2) :
      Completes schema (.catalog entity) (.catalog before) (.catalog after)
  | sideTable {domain : Path} {type : FieldType} {before after : SideTable Node}
      (stays : after.domain = before.domain)
      (same : Keyed.keys after.entries = Keyed.keys before.entries)
      (below : ∀ pair ∈ before.entries.zip after.entries,
        Completes schema type pair.1.2 pair.2.2) :
      Completes schema (.sideTable domain type) (.sideTable before) (.sideTable after)
  | unchanged {type : FieldType} {node : Node} (closed : schema.opens type node = false) :
      Completes schema type node node

/-! ### Completing does no more -/

theorem completeDeclared_keys {again : Node → Completion}
    {completions : List (String × Completion)} {declared : List FieldDef} {fields : Fields Node}
    {changed : List String} :
    (Keyed.keys fields.entries).Sublist
      (Keyed.keys (completeDeclared again completions declared fields changed).1.entries) := by
  induction declared generalizing fields changed with
  | nil => exact List.Sublist.refl _
  | cons field rest ih =>
      unfold completeDeclared
      dsimp only
      split
      · exact (Keyed.keys_sublist_putSorted _ _ _).trans ih
      · exact ih

/-- Fields of which none was completed are the ones there were. -/
theorem completeDeclared_of_eq_nil {again : Node → Completion}
    {completions : List (String × Completion)} {declared : List FieldDef} {fields : Fields Node}
    {changed : List String}
    (none : (completeDeclared again completions declared fields changed).2 = []) :
    (completeDeclared again completions declared fields changed).1 = fields := by
  induction declared generalizing fields changed with
  | nil => rfl
  | cons field rest ih =>
      unfold completeDeclared at none ⊢
      dsimp only at none ⊢
      split at none
      · exact absurd none (completeDeclared_changed (List.cons_ne_nil _ _))
      · exact ih none

/-- A struct after completion, whether or not something was missing. -/
theorem complete_struct_getD {again : Node → Completion} {fields : Fields Node} {name : String}
    {struct : StructDef} (found : schema.struct? name = some struct) :
    (schema.complete again (.struct fields) (.struct name)).getD (.struct fields) =
      .struct (completeDeclared again (fieldCompletions schema again fields.entries)
        struct.fields fields []).1 := by
  obtain ⟨entries⟩ := fields
  simp only [Schema.complete, found]
  split
  · rename_i result
    have none := completeDeclared_of_eq_nil (congrArg Prod.snd result)
    rw [none]
    rfl
  · rename_i result
    rw [result]
    rfl

/-- The entries of a container after completion, whether or not something was missing. -/
theorem completeEntries_getD {again : Node → Completion} {entries : List (Identifier × Node)}
    {type : FieldType} :
    (completeEntries schema again entries type).getD entries =
      entries.map fun entry => (entry.1, (schema.complete again entry.2 type).getD entry.2) := by
  cases result : completeEntries schema again entries type with
  | some completed => exact completeEntries_eq_some result
  | none =>
      rw [completeEntries_eq_none_iff] at result
      refine ((List.map_congr_left fun entry member => ?_).trans (List.map_id entries)).symm
      rw [result entry member]
      rfl

theorem keys_completeEntries (again : Node → Completion) (entries : List (Identifier × Node))
    (type : FieldType) :
    Keyed.keys ((completeEntries schema again entries type).getD entries) = Keyed.keys entries := by
  rw [completeEntries_getD, Keyed.keys, List.map_map]
  rfl

theorem zip_completeEntries {again : Node → Completion} {entries : List (Identifier × Node)}
    {type : FieldType} {pair : (Identifier × Node) × (Identifier × Node)}
    (member : pair ∈ entries.zip ((completeEntries schema again entries type).getD entries)) :
    pair.1 ∈ entries ∧ pair.2.2 = (schema.complete again pair.1.2 type).getD pair.1.2 := by
  have whole := List.zip_map' (f := id) (l := entries)
    (g := fun entry => (entry.1, (schema.complete again entry.2 type).getD entry.2))
  rw [List.map_id] at whole
  rw [completeEntries_getD, whole] at member
  obtain ⟨entry, there, rfl⟩ := List.mem_map.mp member
  exact ⟨there, rfl⟩

/-- Where no field is declared twice, completing does what it may. -/
theorem completes_complete (distinct : schema.DistinctFields) (again : Node → Completion)
    (type : FieldType) (node : Node) :
    schema.Completes type node ((schema.complete again node type).getD node) := by
  have stays {type : FieldType} {node : Node} (closed : schema.opens type node = false)
      (complete : schema.complete again node type = none) :
      schema.Completes type node ((schema.complete again node type).getD node) := by
    rw [complete]
    exact .unchanged closed
  induction node using Node.induct generalizing type with
  | leaf node primitive =>
      cases node with
      | bool | int | str | id | ref => cases type <;> exact stays rfl (by simp [Schema.complete])
      | _ => cases primitive
  | listing ids => cases type <;> exact stays rfl (by simp [Schema.complete])
  | struct fields below =>
      cases type with
      | struct name =>
          cases found : schema.struct? name with
          | none => exact stays (by simp [opens, found]) (by simp [Schema.complete, found])
          | some struct =>
              have entry := Keyed.mem_of_lookup found
              have holds : ∀ field ∈ struct.fields,
                  (completeDeclared again (fieldCompletions schema again fields.entries)
                    struct.fields fields []).1.get? field.name =
                      completedField (fieldCompletions schema again fields.entries) fields field :=
                get?_completeDeclared (distinct (name, struct) entry) fun _ _ => List.not_mem_nil
              rw [complete_struct_getD found]
              refine .struct found completeDeclared_keys ?_ ?_ ?_
              · intro other undeclared
                apply get?_completeDeclared_of_ne
                rintro field member rfl
                exact List.find?_eq_none.mp undeclared field member (beq_self_eq_true _)
              · intro field member absent
                rw [holds field member, completedField, absent]
                cases field.presence <;> rfl
              · intro field member value completed held after
                have there : fields.entries.lookup field.name = some value := held
                rw [holds field member, completedField, held, lookup_fieldCompletions,
                  there] at after
                cases after
                exact below (field.name, value) (Keyed.mem_of_lookup there) field.type
      | _ => exact stays rfl (by simp [Schema.complete])
  | catalog entities below =>
      cases type with
      | catalog entity =>
          have whole : (schema.complete again (.catalog entities) (.catalog entity)).getD
              (.catalog entities) = .catalog ⟨(completeEntries schema again entities.entries
                (.struct entity)).getD entities.entries⟩ := by
            simp only [Schema.complete]
            cases completeEntries schema again entities.entries (.struct entity) <;> rfl
          rw [whole]
          refine .catalog (keys_completeEntries again _ _) fun pair member => ?_
          obtain ⟨there, completed⟩ := zip_completeEntries member
          rw [completed]
          exact below pair.1 there _
      | _ => exact stays rfl (by simp [Schema.complete])
  | sideTable table below =>
      cases type with
      | sideTable domain value =>
          have whole : (schema.complete again (.sideTable table) (.sideTable domain value)).getD
              (.sideTable table) = .sideTable ⟨table.domain,
                (completeEntries schema again table.entries value).getD table.entries⟩ := by
            simp only [Schema.complete]
            cases completeEntries schema again table.entries value <;> rfl
          rw [whole]
          refine .sideTable rfl (keys_completeEntries again _ _) fun pair member => ?_
          obtain ⟨there, completed⟩ := zip_completeEntries member
          rw [completed]
          exact below pair.1 there _
      | _ => exact stays rfl (by simp [Schema.complete])

theorem completes_polyfill (distinct : schema.DistinctFields) (root : Node) :
    schema.Completes schema.rootType root (schema.polyfill root) := by
  unfold polyfill
  cases schema.declarations.length <;> exact completes_complete distinct _ _ _

/-! ### Validity -/

/-- The catalogs that a type holds are of entities, which carry their identifiers. -/
def HoldsEntities (schema : Schema) : FieldType → Prop
  | .catalog entity => ∃ struct, schema.struct? entity = some struct ∧ struct.isEntity = true
  | .sideTable _ value => schema.HoldsEntities value
  | _ => True

theorem holdsEntities_of_checkType {owner field : String} {type : FieldType}
    (checked : schema.checkType owner field type = .ok ()) : schema.HoldsEntities type := by
  induction type with
  | catalog entity =>
      unfold checkType at checked
      split at checked
      · cases checked
      · rename_i struct found
        split at checked
        · rename_i entity
          exact ⟨struct, found, entity⟩
        · cases checked
  | sideTable domain value ih => exact ih checked
  | _ => trivial

/-- All catalogs that a schema declares are of entities. -/
def EntitiesOnly (schema : Schema) : Prop :=
  ∀ entry ∈ schema.types, ∀ field ∈ entry.2.fields, schema.HoldsEntities field.type

theorem entitiesOnly_of_build {builder : SchemaBuilder} (built : builder.build = .ok schema) :
    schema.EntitiesOnly := fun _ there _ member =>
  holdsEntities_of_checkType (checked_of_build built _ (mem_declarations there member)).1

/-- The identifier of an entity is a required field, so it is neither added nor completed. -/
theorem Completes.entityId?_eq {entity : String} {struct : StructDef} {before after : Node}
    (completes : schema.Completes (.struct entity) before after)
    (found : schema.struct? entity = some struct) (isEntity : struct.isEntity = true) :
    after.entityId? = before.entityId? := by
  cases completes with
  | unchanged => rfl
  | @struct _ other before after same order kept added below =>
      cases found.symm.trans same
      unfold StructDef.isEntity at isEntity
      split at isEntity
      · rename_i field named
        obtain ⟨member, name⟩ := StructDef.mem_of_field? named
        rw [Bool.and_eq_true, beq_iff_eq, beq_iff_eq] at isEntity
        obtain ⟨type, presence⟩ := isEntity
        have fixed : after.get? "id" = before.get? "id" := by
          cases held : before.get? "id" with
          | none =>
              have absent := added field member (name ▸ held)
              rwa [presence, name] at absent
          | some value =>
              have there : "id" ∈ Keyed.keys after.entries :=
                order.mem (Keyed.mem_keys_of_lookup held)
              obtain ⟨completed, found⟩ := Option.isSome_iff_exists.mp
                (Keyed.isSome_lookup_iff.mpr there)
              have onward := below field member value completed (name ▸ held) (name ▸ found)
              rw [type] at onward
              cases onward
              exact found
        simp only [Node.entityId?, fixed]
      · cases isEntity

/-- What has no declared parts fits under both schemas or under neither. -/
theorem fits_lenient_of_closed {type : FieldType} {node : Node}
    (closed : schema.opens type node = false) :
    schema.Fits type node ↔ schema.lenient.Fits type node := by
  cases node with
  | struct fields =>
      cases type with
      | struct name =>
          have absent : schema.struct? name = none := by simpa [opens] using closed
          simp [fits_struct_iff, struct?_lenient, absent]
      | _ => simp [Fits, validateAt, check]
  | catalog entities =>
      cases type with
      | catalog entity => cases closed
      | _ => simp [Fits, validateAt, check]
  | sideTable table =>
      cases type with
      | sideTable domain value => cases closed
      | _ => simp [Fits, validateAt, check]
  | _ => cases type <;> simp [Fits, validateAt, check]

/-- A completed node is legal exactly if it was legal up to missing fields with defaults. -/
theorem Completes.fits_iff (defaults : schema.DefaultsFit) (entities : schema.EntitiesOnly)
    {type : FieldType} {before after : Node} (completes : schema.Completes type before after)
    (holds : schema.HoldsEntities type) :
    schema.Fits type after ↔ schema.lenient.Fits type before := by
  induction completes with
  | unchanged closed => exact fits_lenient_of_closed closed
  | @struct name struct before after found order kept added below ih =>
      have entry := Keyed.mem_of_lookup found
      rw [fits_lenient_struct_iff found, fits_struct_iff]
      simp only [found, Option.some.injEq, exists_eq_left']
      have still {name : String} (there : name ∈ Keyed.keys before.entries) :
          ∃ completed, after.get? name = some completed :=
        Option.isSome_iff_exists.mp (Keyed.isSome_lookup_iff.mpr (order.mem there))
      refine and_congr (forall₂_congr fun field member => ?_) ?_
      · cases held : before.get? field.name with
        | some value =>
            obtain ⟨completed, after⟩ := still (Keyed.mem_keys_of_lookup held)
            have onward := ih field member value completed held after
              (entities (name, struct) entry field member)
            simp [after, onward]
        | none =>
            rw [added field member held]
            cases presence : field.presence with
            | polyfill value =>
                simpa [Presence.default?] using
                  defaults (name, struct) entry field member value presence
            | required => simp [Presence.default?]
            | optional => simp [Presence.default?]
      · constructor
        · exact fun known other there => known other (order.mem there)
        · intro known other there
          by_contra undeclared
          rw [Bool.not_eq_true, Option.isSome_eq_false_iff, Option.isNone_iff_eq_none] at undeclared
          have same : after.entries.lookup other = before.entries.lookup other :=
            kept other undeclared
          rw [← Keyed.isSome_lookup_iff, same, Keyed.isSome_lookup_iff] at there
          simpa [undeclared] using known other there
  | @catalog entity before after same below ih =>
      obtain ⟨struct, found, isEntity⟩ := holds
      rw [fits_catalog_iff, fits_catalog_iff]
      apply Keyed.forall_mem_iff_of_zip same
      intro pair member key
      rw [ih pair member trivial, (below pair member).entityId?_eq found isEntity, key]
  | @sideTable domain type before after stays same below ih =>
      rw [fits_sideTable_iff, fits_sideTable_iff, stays]
      refine and_congr_right fun _ => Keyed.forall_mem_iff_of_zip same ?_
      intro pair member _
      exact ih pair member holds

/-- Completing a tree under a schema that was built and declares no field twice adds missing fields
with their defaults and does nothing else; it adds all of them at once, leaves a valid tree as it
is, and makes valid exactly the trees that are valid up to such fields. -/
theorem polyfill_exact {builder : SchemaBuilder} (built : builder.build = .ok schema)
    (distinct : schema.DistinctFields) (root : Node) :
    schema.Completes schema.rootType root (schema.polyfill root) ∧
      schema.polyfill (schema.polyfill root) = schema.polyfill root ∧
      (schema.Valid root → schema.polyfill root = root) ∧
      (schema.Valid (schema.polyfill root) ↔ schema.lenient.Valid root) := by
  have defaults := defaultsFit_of_build built
  have completes := completes_polyfill distinct root
  refine ⟨completes, polyfill_eq_self (complete_polyfill distinct defaults root), ?_, ?_⟩
  · exact fun valid => polyfill_eq_self (Fits.complete valid)
  · exact completes.fits_iff defaults (entitiesOnly_of_build built) trivial

end Schema

/-! ### A sample with entities inside side tables -/

namespace Sample

/-- Marks have an entity of their own below them, and both sorts of struct have a default. -/
def mark : StructDef :=
  ⟨"Mark", [⟨"parts", .catalog "Part", .required⟩, ⟨"depth", .int, .polyfill (.int 1)⟩]⟩

def part : StructDef :=
  ⟨"Part", [⟨"id", .identifier, .required⟩, ⟨"label", .str, .polyfill (.str "none")⟩]⟩

def forest : StructDef :=
  ⟨"Forest", [⟨"parts", .catalog "Part", .required⟩,
    ⟨"marks", .sideTable (.ofNames ["parts"]) (.struct "Mark"), .required⟩]⟩

def forestSchema : Schema := ⟨"Forest", [("Forest", forest), ("Mark", mark), ("Part", part)]⟩

theorem forest_built :
    ((((SchemaBuilder.new "Forest").define forest).define mark).define part).build =
      .ok forestSchema :=
  eq_ok_of_toOption (by decide +kernel)

/-- A tree in which one part below a mark is labelled and nothing else that has a default is
there. -/
def oldForest : Node :=
  .struct ⟨[("marks", .sideTable ⟨.ofNames ["parts"],
      [(b, .struct ⟨[("parts", .catalog ⟨[(b, .struct ⟨[("id", .id b)]⟩),
        (a, .struct ⟨[("id", .id a), ("label", .str "kept")]⟩)]⟩)]⟩)]⟩),
    ("parts", .catalog ⟨[(a, .struct ⟨[("id", .id a)]⟩)]⟩)]⟩

/-- The tree with all that it lacks. -/
def newForest : Node :=
  .struct ⟨[("marks", .sideTable ⟨.ofNames ["parts"],
      [(b, .struct ⟨[("depth", .int 1), ("parts", .catalog ⟨
        [(b, .struct ⟨[("id", .id b), ("label", .str "none")]⟩),
          (a, .struct ⟨[("id", .id a), ("label", .str "kept")]⟩)]⟩)]⟩)]⟩),
    ("parts", .catalog ⟨[(a, .struct ⟨[("id", .id a), ("label", .str "none")]⟩)]⟩)]⟩

theorem forest_completed :
    forestSchema.DistinctFields ∧ ¬ forestSchema.Valid oldForest ∧
      forestSchema.Completes forestSchema.rootType oldForest newForest ∧
      forestSchema.Valid newForest := by
  have distinct : forestSchema.DistinctFields := by decide
  have completed : forestSchema.polyfill oldForest = newForest := by decide +kernel
  have lenient : forestSchema.lenient.Valid oldForest := by decide +kernel
  have whole := Schema.polyfill_exact forest_built distinct oldForest
  rw [completed] at whole
  exact ⟨distinct, by decide +kernel, whole.1, whole.2.2.2.mpr lenient⟩

end Sample

end StateTree
