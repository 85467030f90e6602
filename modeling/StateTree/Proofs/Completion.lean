/-
Module: StateTree.Proofs.Completion
Purpose: When nothing is missing from a tree. What fits a type is complete, completing makes a tree
  complete and leaves a complete one as it is, and no checked change makes one incomplete.
-/
import StateTree.Proofs.Validity
import StateTree.Schema.Build
import StateTree.Schema.Polyfill

namespace StateTree

namespace Schema

variable {schema : Schema}

/-- Nothing is missing from a node of a declared type. -/
def Complete (schema : Schema) (type : FieldType) (node : Node) : Prop :=
  schema.complete (fun _ _ => none) node type = none

/-! ### One container -/

theorem lookup_fieldCompletions (again : Node → Completion) (name : String)
    (fields : List (String × Node)) :
    (fieldCompletions schema again fields).lookup name =
      (fields.lookup name).map (schema.complete again) := by
  induction fields with
  | nil => rfl
  | cons field rest ih =>
      obtain ⟨other, value⟩ := field
      cases same : name == other <;> simp [fieldCompletions, List.lookup_cons, same, ih]

theorem completeDeclared_changed {again : Node → Completion}
    {completions : List (String × Completion)} {declared : List FieldDef} {fields : Fields Node}
    {changed : List String} (some : changed ≠ []) :
    (completeDeclared again completions declared fields changed).2 ≠ [] := by
  induction declared generalizing fields changed with
  | nil => exact some
  | cons field rest ih =>
      unfold completeDeclared
      dsimp only
      split
      · exact ih (List.cons_ne_nil _ _)
      · exact ih some

/-- Completing the declared fields of a struct changes none when nothing is missing from any that is
there and none is missing that has a default. -/
theorem completeDeclared_eq_nil_iff {again : Node → Completion}
    {completions : List (String × Completion)} {declared : List FieldDef} {fields : Fields Node} :
    (completeDeclared again completions declared fields []).2 = [] ↔
      ∀ field ∈ declared,
        ((fields.get? field.name).isSome = true →
          ∀ completion, completions.lookup field.name = some completion →
            completion field.type = none) ∧
        (fields.get? field.name = none → ∀ value, field.presence ≠ .polyfill value) := by
  induction declared with
  | nil => simp [completeDeclared]
  | cons field rest ih =>
      have changed {name : String} {fields : Fields Node} :
          (completeDeclared again completions rest fields [name]).2 = [] ↔ False :=
        iff_false_intro (completeDeclared_changed (List.cons_ne_nil _ _))
      rw [List.forall_mem_cons, ← ih, completeDeclared]
      cases held : fields.get? field.name with
      | some value =>
          cases found : completions.lookup field.name with
          | none => simp
          | some completion =>
              cases completed : completion field.type <;> simp [completed, changed]
      | none => cases field.presence <;> simp [changed]

theorem completeEntries_eq_none_iff {again : Node → Completion}
    {entries : List (Identifier × Node)} {type : FieldType} :
    completeEntries schema again entries type = none ↔
      ∀ entry ∈ entries, schema.complete again entry.2 type = none := by
  induction entries with
  | nil => simp [completeEntries]
  | cons entry rest ih =>
      obtain ⟨key, value⟩ := entry
      rw [List.forall_mem_cons, ← ih, completeEntries]
      cases schema.complete again value type <;>
        cases completeEntries schema again rest type <;> simp

theorem complete_struct_eq_none_iff {again : Node → Completion} {fields : Fields Node}
    {type : String} :
    schema.complete again (.struct fields) (.struct type) = none ↔
      ∀ struct, schema.struct? type = some struct → ∀ field ∈ struct.fields,
        (∀ value, fields.get? field.name = some value →
          schema.complete again value field.type = none) ∧
        (fields.get? field.name = none → ∀ value, field.presence ≠ .polyfill value) := by
  obtain ⟨entries⟩ := fields
  cases found : schema.struct? type with
  | none => simp [complete, found]
  | some struct =>
      have declared : (completeDeclared again (fieldCompletions schema again entries) struct.fields
          ⟨entries⟩ []).2 = [] ↔ ∀ field ∈ struct.fields,
            (∀ value, entries.lookup field.name = some value →
              schema.complete again value field.type = none) ∧
            (entries.lookup field.name = none → ∀ value, field.presence ≠ .polyfill value) := by
        rw [completeDeclared_eq_nil_iff]
        refine forall₂_congr fun field _ => and_congr_left fun _ => ?_
        rw [lookup_fieldCompletions]
        cases held : entries.lookup field.name <;> simp [Fields.get?, held]
      simp only [complete, found, Option.some.injEq, forall_eq', Fields.get?]
      rw [← declared]
      rcases completeDeclared again (fieldCompletions schema again entries) struct.fields
        ⟨entries⟩ [] with ⟨fields, changed⟩
      cases changed <;> simp

theorem complete_catalog_eq_none_iff {again : Node → Completion} {entities : Catalog Node}
    {entity : String} :
    schema.complete again (.catalog entities) (.catalog entity) = none ↔
      ∀ entry ∈ entities.entries, schema.complete again entry.2 (.struct entity) = none := by
  obtain ⟨entries⟩ := entities
  simp [complete, completeEntries_eq_none_iff]

theorem complete_sideTable_eq_none_iff {again : Node → Completion} {table : SideTable Node}
    {domain : Path} {type : FieldType} :
    schema.complete again (.sideTable table) (.sideTable domain type) = none ↔
      ∀ entry ∈ table.entries, schema.complete again entry.2 type = none := by
  obtain ⟨found, entries⟩ := table
  simp [complete, completeEntries_eq_none_iff]

/-- Whether something is missing does not depend on how a field is completed that is declared once
more. -/
theorem complete_eq_none_iff {again : Node → Completion} {node : Node} {type : FieldType} :
    schema.complete again node type = none ↔ schema.Complete type node := by
  unfold Complete
  induction node using Node.induct generalizing type with
  | leaf node primitive => cases node <;> simp_all [complete, Node.isPrimitive]
  | listing ids => simp [complete]
  | struct fields below =>
      cases type with
      | struct name =>
          rw [complete_struct_eq_none_iff, complete_struct_eq_none_iff]
          refine forall₂_congr fun struct _ => forall₂_congr fun field _ => ?_
          refine and_congr_left fun _ => ?_
          refine forall₂_congr fun value held => ?_
          exact below (field.name, value) (Keyed.mem_of_lookup held)
      | _ => simp [complete]
  | catalog entities below =>
      cases type with
      | catalog entity =>
          rw [complete_catalog_eq_none_iff, complete_catalog_eq_none_iff]
          exact forall₂_congr fun entry member => below entry member
      | _ => simp [complete]
  | sideTable table below =>
      cases type with
      | sideTable domain value =>
          rw [complete_sideTable_eq_none_iff, complete_sideTable_eq_none_iff]
          exact forall₂_congr fun entry member => below entry member
      | _ => simp [complete]

/-! ### What is complete -/

theorem complete_struct_iff {fields : Fields Node} {type : String} :
    schema.Complete (.struct type) (.struct fields) ↔
      ∀ struct, schema.struct? type = some struct → ∀ field ∈ struct.fields,
        (∀ value, fields.get? field.name = some value → schema.Complete field.type value) ∧
        (fields.get? field.name = none → ∀ value, field.presence ≠ .polyfill value) :=
  complete_struct_eq_none_iff

theorem complete_catalog_iff {entities : Catalog Node} {entity : String} :
    schema.Complete (.catalog entity) (.catalog entities) ↔
      ∀ entry ∈ entities.entries, schema.Complete (.struct entity) entry.2 :=
  complete_catalog_eq_none_iff

theorem complete_sideTable_iff {table : SideTable Node} {domain : Path} {type : FieldType} :
    schema.Complete (.sideTable domain type) (.sideTable table) ↔
      ∀ entry ∈ table.entries, schema.Complete type entry.2 :=
  complete_sideTable_eq_none_iff

/-- Nothing is missing from a legal value: a field with a default has to be there. -/
theorem Fits.complete {type : FieldType} {node : Node} (fits : schema.Fits type node) :
    schema.Complete type node := by
  induction node using Node.induct generalizing type with
  | leaf node primitive => cases node <;> simp_all [Complete, Schema.complete, Node.isPrimitive]
  | listing ids => simp [Complete, Schema.complete]
  | struct fields below =>
      obtain ⟨name, rfl⟩ := fits.type_of_struct
      rw [complete_struct_iff]
      intro struct found field member
      constructor
      · intro value held
        exact below (field.name, value) (Keyed.mem_of_lookup held) (fits.field found member held)
      · intro absent value presence
        obtain ⟨other, same, declared, -⟩ := fits_struct_iff.mp fits
        cases found.symm.trans same
        have deletable := (declared field member).2 absent
        rw [presence] at deletable
        cases deletable
  | catalog entities below =>
      obtain ⟨entity, rfl⟩ := fits.type_of_catalog
      rw [complete_catalog_iff]
      intro entry member
      exact below entry member (fits_catalog_iff.mp fits entry member).1
  | sideTable table below =>
      obtain ⟨domain, value, rfl⟩ := fits.type_of_sideTable
      rw [complete_sideTable_iff]
      intro entry member
      exact below entry member ((fits_sideTable_iff.mp fits).2 entry member)

/-! ### What completing makes -/

/-- What a declared field holds after completion. -/
def completedField (completions : List (String × Completion)) (fields : Fields Node)
    (field : FieldDef) : Option Node :=
  match fields.get? field.name, field.presence with
  | some held, _ =>
      some (((completions.lookup field.name).bind fun completion => completion field.type).getD held)
  | none, .polyfill value => some value
  | none, _ => none

theorem completedField_insert {completions : List (String × Completion)} {fields : Fields Node}
    {field : FieldDef} {name : String} (different : field.name ≠ name) (value : Node) :
    completedField completions (fields.insert name value) field =
      completedField completions fields field := by
  unfold completedField
  rw [Fields.get?_insert_of_ne different]

/-- A field that is not declared stays as it is. -/
theorem get?_completeDeclared_of_ne {again : Node → Completion}
    {completions : List (String × Completion)} {declared : List FieldDef} {fields : Fields Node}
    {changed : List String} {name : String} (other : ∀ field ∈ declared, name ≠ field.name) :
    (completeDeclared again completions declared fields changed).1.get? name =
      fields.get? name := by
  induction declared generalizing fields changed with
  | nil => rfl
  | cons field rest ih =>
      obtain ⟨different, others⟩ := List.forall_mem_cons.mp other
      unfold completeDeclared
      dsimp only
      split
      · rw [ih others, Fields.get?_insert_of_ne different]
      · exact ih others

/-- A field that is declared once is completed, or gets its default. -/
theorem get?_completeDeclared {again : Node → Completion}
    {completions : List (String × Completion)} {declared : List FieldDef} {fields : Fields Node}
    {changed : List String} (apart : (declared.map FieldDef.name).Nodup)
    (fresh : ∀ field ∈ declared, field.name ∉ changed) :
    ∀ field ∈ declared,
      (completeDeclared again completions declared fields changed).1.get? field.name =
        completedField completions fields field := by
  induction declared generalizing fields changed with
  | nil => simp
  | cons first rest ih =>
      obtain ⟨alone, apart⟩ := List.nodup_cons.mp apart
      obtain ⟨unchanged, fresh⟩ := List.forall_mem_cons.mp fresh
      have different : ∀ field ∈ rest, field.name ≠ first.name := by
        intro field member same
        exact alone (same ▸ List.mem_map_of_mem member)
      have still (changed : List String) (fresh : ∀ field ∈ rest, field.name ∉ changed) :
          ∀ field ∈ rest, field.name ∉ first.name :: changed := by
        intro field member
        rw [List.mem_cons, not_or]
        exact ⟨different field member, fresh field member⟩
      have later (value : Node) : ∀ field ∈ rest,
          (completeDeclared again completions rest (fields.insert first.name value)
            (first.name :: changed)).1.get? field.name =
              completedField completions fields field := by
        intro field member
        rw [ih apart (still changed fresh) field member,
          completedField_insert (different field member)]
      have here (value : Node) :
          (completeDeclared again completions rest (fields.insert first.name value)
            (first.name :: changed)).1.get? first.name = some value := by
        rw [get?_completeDeclared_of_ne fun field member => (different field member).symm]
        exact Fields.get?_insert_self _ _ _
      have skipped : (completeDeclared again completions rest fields changed).1.get? first.name =
          fields.get? first.name :=
        get?_completeDeclared_of_ne fun field member => (different field member).symm
      rw [List.forall_mem_cons, completeDeclared, completedField]
      cases held : fields.get? first.name with
      | some value =>
          simp only [unchanged, if_false]
          cases (completions.lookup first.name).bind fun completion => completion first.type with
          | none => exact ⟨skipped.trans held, ih apart fresh⟩
          | some completed => exact ⟨here completed, later completed⟩
      | none =>
          cases presence : first.presence with
          | polyfill value => exact ⟨here value, later value⟩
          | required => exact ⟨skipped.trans held, ih apart fresh⟩
          | optional => exact ⟨skipped.trans held, ih apart fresh⟩

/-- Each entry of a container is completed in its place. -/
theorem completeEntries_eq_some {again : Node → Completion} {entries : List (Identifier × Node)}
    {type : FieldType} {completed : List (Identifier × Node)}
    (some : completeEntries schema again entries type = some completed) :
    completed =
      entries.map fun entry => (entry.1, (schema.complete again entry.2 type).getD entry.2) := by
  have unchanged {entries : List (Identifier × Node)}
      (none : completeEntries schema again entries type = none) :
      entries.map (fun entry => (entry.1, (schema.complete again entry.2 type).getD entry.2)) =
        entries := by
    rw [completeEntries_eq_none_iff] at none
    refine (List.map_congr_left fun entry member => ?_).trans (List.map_id entries)
    rw [none entry member]
    rfl
  induction entries generalizing completed with
  | nil => cases some
  | cons entry rest ih =>
      obtain ⟨key, value⟩ := entry
      unfold completeEntries at some
      split at some
      · cases some
      · rename_i node none more
        cases some
        rw [List.map_cons, none, unchanged more]
        rfl
      · rename_i none more
        cases some
        rw [List.map_cons, none, ← ih more]
        rfl
      · rename_i node value more
        cases some
        rw [List.map_cons, value, ← ih more]
        rfl

/-- Every default is a legal value of its field. -/
def DefaultsFit (schema : Schema) : Prop :=
  ∀ entry ∈ schema.types, ∀ field ∈ entry.2.fields, ∀ value, field.presence = .polyfill value →
    schema.Fits field.type value

theorem forM_eq_ok_iff {ε α : Type} {items : List α} {check : α → Except ε Unit} :
    items.forM check = .ok () ↔ ∀ item ∈ items, check item = .ok () := by
  induction items with
  | nil => simp
  | cons item rest ih =>
      rw [List.forall_mem_cons, ← ih, List.forM_eq_forM, List.forM_cons]
      cases check item <;> simp

theorem mem_declarations {entry : String × StructDef} (there : entry ∈ schema.types)
    {field : FieldDef} (member : field ∈ entry.2.fields) :
    (entry.2, field) ∈ schema.declarations :=
  List.mem_flatMap.mpr ⟨entry, there, List.mem_map_of_mem member⟩

/-- What every declaration of a schema that was built has passed. -/
theorem checked_of_build {builder : SchemaBuilder} (built : builder.build = .ok schema) :
    ∀ declaration ∈ schema.declarations,
      schema.checkType declaration.1.name declaration.2.name declaration.2.type = .ok () ∧
        schema.checkDefault declaration.1.name declaration.2 = .ok () := by
  unfold SchemaBuilder.build at built
  dsimp only at built
  split at built
  · obtain ⟨⟨⟩, types, built⟩ := bind_eq_ok_iff.mp built
    obtain ⟨-, -, built⟩ := bind_eq_ok_iff.mp built
    obtain ⟨⟨⟩, defaults, same⟩ := bind_eq_ok_iff.mp built
    cases same
    exact fun declaration member =>
      ⟨forM_eq_ok_iff.mp types declaration member, forM_eq_ok_iff.mp defaults declaration member⟩
  · cases built

/-- The defaults of a schema that was built fit. -/
theorem defaultsFit_of_build {builder : SchemaBuilder} (built : builder.build = .ok schema) :
    schema.DefaultsFit := by
  intro entry there field member value presence
  have passed := (checked_of_build built _ (mem_declarations there member)).2
  simp only [checkDefault, presence] at passed
  split at passed
  · rename_i fits
    exact validateAt_eq_ok_iff.mp fits
  · cases passed

/-- A struct is completed by completing its declared fields. -/
theorem complete_struct_eq_some {again : Node → Completion} {fields : Fields Node} {name : String}
    {struct : StructDef} {completed : Node} (found : schema.struct? name = some struct)
    (some : schema.complete again (.struct fields) (.struct name) = some completed) :
    completed = .struct (completeDeclared again (fieldCompletions schema again fields.entries)
      struct.fields fields []).1 := by
  obtain ⟨entries⟩ := fields
  simp only [Schema.complete, found] at some
  split at some
  · cases some
  · rename_i changed
    rw [changed]
    exact (Option.some.inj some).symm

/-- What was completed is complete. -/
theorem complete_of_eq_some (distinct : schema.DistinctFields) (defaults : schema.DefaultsFit)
    {again : Node → Completion} {node completed : Node} {type : FieldType}
    (some : schema.complete again node type = some completed) :
    schema.Complete type completed := by
  have getD {node : Node} {type : FieldType}
      (below : ∀ type completed, schema.complete again node type = Option.some completed →
        schema.Complete type completed) :
      schema.Complete type ((schema.complete again node type).getD node) := by
    cases result : schema.complete again node type with
    | none => exact complete_eq_none_iff.mp result
    | some completed => exact below type completed result
  induction node using Node.induct generalizing type completed with
  | leaf node primitive => cases node <;> simp_all [Schema.complete, Node.isPrimitive]
  | listing ids => simp [Schema.complete] at some
  | struct fields below =>
      obtain ⟨entries⟩ := fields
      cases type with
      | struct name =>
          cases found : schema.struct? name with
          | none => simp [Schema.complete, found] at some
          | some struct =>
              rw [complete_struct_eq_some found some, complete_struct_iff]
              intro other same field member
              cases found.symm.trans same
              have holds : (completeDeclared again (fieldCompletions schema again entries)
                  struct.fields ⟨entries⟩ []).1.get? field.name =
                    completedField (fieldCompletions schema again entries) ⟨entries⟩ field :=
                get?_completeDeclared (distinct (name, struct) (Keyed.mem_of_lookup found))
                  (fun _ _ => List.not_mem_nil) field member
              rw [holds, completedField, lookup_fieldCompletions]
              cases held : entries.lookup field.name with
              | some value =>
                  simp only [Fields.get?, held, Option.map_some, Option.bind_some,
                    Option.some.injEq, forall_eq', reduceCtorEq, false_implies, and_true]
                  exact getD fun type completed =>
                    below (field.name, value) (Keyed.mem_of_lookup held)
              | none =>
                  cases presence : field.presence with
                  | polyfill value =>
                      simp only [Fields.get?, held, Option.some.injEq, forall_eq', reduceCtorEq,
                        false_implies, and_true]
                      exact (defaults (name, struct) (Keyed.mem_of_lookup found) field member value
                        presence).complete
                  | required => simp [Fields.get?, held]
                  | optional => simp [Fields.get?, held]
      | _ => simp [Schema.complete] at some
  | catalog entities below =>
      cases type with
      | catalog entity =>
          obtain ⟨entries⟩ := entities
          obtain ⟨more, result, rfl⟩ := Option.map_eq_some_iff.mp some
          rw [complete_catalog_iff, completeEntries_eq_some result]
          intro entry member
          obtain ⟨earlier, there, rfl⟩ := List.mem_map.mp member
          exact getD fun type completed => below earlier there
      | _ => simp [Schema.complete] at some
  | sideTable table below =>
      cases type with
      | sideTable domain value =>
          obtain ⟨found, entries⟩ := table
          obtain ⟨more, result, rfl⟩ := Option.map_eq_some_iff.mp some
          rw [complete_sideTable_iff, completeEntries_eq_some result]
          intro entry member
          obtain ⟨earlier, there, rfl⟩ := List.mem_map.mp member
          exact getD fun type completed => below earlier there
      | _ => simp [Schema.complete] at some

theorem completeWithin_eq_none_iff {rounds : Nat} {node : Node} {type : FieldType} :
    schema.completeWithin rounds node type = none ↔ schema.Complete type node := by
  cases rounds <;> exact complete_eq_none_iff

/-- A complete tree stays as it is. -/
theorem polyfill_eq_self {root : Node} (complete : schema.Complete schema.rootType root) :
    schema.polyfill root = root := by
  unfold polyfill
  rw [completeWithin_eq_none_iff.mpr complete]
  rfl

theorem complete_polyfill (distinct : schema.DistinctFields) (defaults : schema.DefaultsFit)
    (root : Node) : schema.Complete schema.rootType (schema.polyfill root) := by
  unfold polyfill
  generalize schema.declarations.length = rounds
  cases result : schema.completeWithin rounds root schema.rootType with
  | none => exact completeWithin_eq_none_iff.mp result
  | some completed => cases rounds <;> exact complete_of_eq_some distinct defaults result

/-! ### Changes -/

theorem complete_insert_iff {fields : Fields Node} {type name : String} {struct : StructDef}
    {value : Node} (complete : schema.Complete (.struct type) (.struct fields))
    (found : schema.struct? type = some struct) :
    schema.Complete (.struct type) (.struct (fields.insert name value)) ↔
      ∀ declared ∈ struct.fields, declared.name = name → schema.Complete declared.type value := by
  rw [complete_struct_iff] at complete ⊢
  constructor
  · rintro after declared member rfl
    exact (after struct found declared member).1 value (Fields.get?_insert_self fields _ value)
  · intro suits other same declared member
    cases found.symm.trans same
    by_cases here : declared.name = name
    · subst here
      simp only [Fields.get?_insert_self, Option.some.injEq, forall_eq', reduceCtorEq,
        false_implies, and_true]
      exact suits declared member rfl
    · simp only [Fields.get?_insert_of_ne here]
      exact complete struct found declared member

theorem complete_catalog_insert {entities : Catalog Node} {entity : String} {id : Identifier}
    {value : Node} (complete : schema.Complete (.catalog entity) (.catalog entities))
    (stored : schema.Complete (.struct entity) value) :
    schema.Complete (.catalog entity) (.catalog (entities.insert id value)) := by
  rw [complete_catalog_iff] at complete ⊢
  intro entry member
  rcases Keyed.mem_of_mem_put member with rfl | there
  · exact stored
  · exact complete entry there

theorem complete_sideTable_insert {table : SideTable Node} {domain : Path} {type : FieldType}
    {id : Identifier} {value : Node}
    (complete : schema.Complete (.sideTable domain type) (.sideTable table))
    (stored : schema.Complete type value) :
    schema.Complete (.sideTable domain type) (.sideTable (table.insert id value)) := by
  rw [complete_sideTable_iff] at complete ⊢
  intro entry member
  rcases Keyed.mem_of_mem_put member with rfl | there
  · exact stored
  · exact complete entry there

/-- Where no field is declared twice, a change that passed its checks leaves a complete node
complete. By induction on the way that the schema resolves. -/
theorem Leads.complete_of_changes (distinct : schema.DistinctFields) {type target : FieldType}
    {segments : List Segment} {steps : List Step} {change : Option Node} {node after : Node}
    (leads : schema.Leads type segments steps target) (suits : Suits schema target steps change)
    (changes : Changes steps node change after) (complete : schema.Complete type node) :
    schema.Complete type after := by
  have last {type : FieldType} {segments : List Segment} {value : Node}
      (leads : schema.Leads type segments [] target) (stored : schema.Fits target value) :
      schema.Complete type value := by
    cases leads
    exact stored.complete
  induction leads generalizing node after with
  | here =>
      cases changes with
      | replaced => exact (suits.1 after rfl).1.complete
  | @field type name struct declared segments steps target found named onward ih =>
      have only : ∀ other ∈ struct.fields, other.name = name → other = declared := by
        rintro other member rfl
        exact Option.some.inj ((distinct.field?_eq found member).symm.trans named)
      obtain ⟨member, rfl⟩ := StructDef.mem_of_field? named
      cases changes with
      | fieldStored =>
          rw [complete_insert_iff complete found]
          intro other there same
          rw [only other there same]
          exact last onward (suits.1 _ rfl).1
      | fieldErased held =>
          rw [complete_struct_iff] at complete ⊢
          intro other same field there
          cases found.symm.trans same
          by_cases here : field.name = declared.name
          · rw [only field there here]
            constructor
            · intro value none
              simp at none
            · intro _ value presence
              apply suits.2 rfl declared.name
              simp [presence, Presence.isDeletable]
          · simp only [Fields.get?_erase_of_ne here]
            exact complete struct found field there
      | belowField more held further =>
          have below := complete_struct_iff.mp complete struct found declared member
          rw [complete_insert_iff complete found]
          intro other there same
          rw [only other there same]
          exact ih suits.tail further (below.1 _ held) last
  | @catalogEntry entity segment key segments steps target keyed onward ih =>
      cases changes with
      | entityStored => exact complete_catalog_insert complete (last onward (suits.1 _ rfl).1)
      | entityErased =>
          rw [complete_catalog_iff] at complete ⊢
          intro entry member
          exact complete entry (Keyed.mem_of_mem_drop member)
      | belowEntity more held further =>
          have below := complete_catalog_iff.mp complete _ (Keyed.mem_of_lookup held)
          exact complete_catalog_insert complete (ih suits.tail further below last)
  | listingEntry keyed owner ih => cases changes <;> simp [Complete, Schema.complete]
  | @tableEntry domain value found segment key inner segments steps target keyed owner onward
      ihOwner ih =>
      cases changes with
      | valueStored => exact complete_sideTable_insert complete (last onward (suits.1 _ rfl).1)
      | valueErased =>
          rw [complete_sideTable_iff] at complete ⊢
          intro entry member
          exact complete entry (Keyed.mem_of_mem_drop member)
      | belowValue more held further =>
          have below := complete_sideTable_iff.mp complete _ (Keyed.mem_of_lookup held)
          exact complete_sideTable_insert complete (ih suits.tail further below last)

end Schema

open Schema

/-- An operation leaves a complete tree complete. -/
theorem Operation.complete_apply {operation : Operation} {schema : Schema} {root after : Node}
    (distinct : schema.DistinctFields) (complete : schema.Complete schema.rootType root)
    (applied : operation.apply schema root = .ok (some after)) :
    schema.Complete schema.rootType after := by
  obtain ⟨accessor, resolved, checked, changes⟩ := changes_of_apply applied
  exact (leads_of_resolve resolved).complete_of_changes distinct checked.suits.2 changes complete

end StateTree
