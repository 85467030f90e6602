/-
Module: StateTree.Proofs.Validity
Purpose: When a change keeps a tree valid. What is checked of an operation is the value it stores
  and the last step of its way, never the tree that results. This says what a change has to satisfy
  for the result to be valid, for every shape of a way, and which operations pass their checks
  without satisfying it.
-/
import StateTree.Proofs.Changes
import StateTree.Proofs.Resolution
import Mathlib.Data.List.Nodup

namespace StateTree

/-- A change at the end of steps from an entity leaves the entity its identifier. -/
def KeepsId (id : Identifier) (steps : List Step) (change : Option Node) : Prop :=
  (steps = [] → ∀ value, change = some value → value.entityId? = some id) ∧
    ∀ deletable, steps = [.field "id" deletable] → change = some (.id id)

/-- A change at the end of steps suits the types on the way: it is legal for every declaration of
each field on the way, and it leaves the entities around it their identifiers. -/
def Schema.Admits (schema : Schema) : FieldType → List Step → Option Node → Prop
  | type, [], some value => schema.Fits type value
  | _, [], none => True
  | .struct type, .field name _ :: rest, change =>
      ∃ struct, schema.struct? type = some struct ∧ (struct.field? name).isSome = true ∧
        ∀ declared ∈ struct.fields, declared.name = name →
          (rest = [] → change = none → declared.presence.isDeletable = true) ∧
            schema.Admits declared.type rest change
  | .catalog entity, .catalogEntry (some id) :: rest, change =>
      schema.Admits (.struct entity) rest change ∧ KeepsId id rest change
  | .sideTable _ value, .tableEntry _ _ _ :: rest, change => schema.Admits value rest change
  | _, _, _ => True

namespace Schema

variable {schema : Schema}

/-! ### One container -/

/-- A struct with a field stored is legal when the value suits each declaration of the field. -/
theorem fits_insert_iff {type name : String} {struct : StructDef} {fields : Fields Node}
    {value : Node} (fits : schema.Fits (.struct type) (.struct fields))
    (found : schema.struct? type = some struct) :
    schema.Fits (.struct type) (.struct (fields.insert name value)) ↔
      (struct.field? name).isSome = true ∧
        ∀ declared ∈ struct.fields, declared.name = name → schema.Fits declared.type value := by
  obtain ⟨other, same, before, known⟩ := fits_struct_iff.mp fits
  cases found.symm.trans same
  constructor
  · intro after
    obtain ⟨other, same, stored, declares⟩ := fits_struct_iff.mp after
    cases found.symm.trans same
    refine ⟨declares name (Keyed.mem_keys_putSorted.mpr (Or.inl rfl)), ?_⟩
    rintro declared member rfl
    exact (stored declared member).1 value (Fields.get?_insert_self fields _ value)
  · rintro ⟨declares, suits⟩
    refine fits_struct_iff.mpr ⟨struct, found, ?_, ?_⟩
    · intro declared member
      by_cases here : declared.name = name
      · subst here
        simp only [Fields.get?_insert_self, Option.some.injEq, reduceCtorEq, false_implies,
          and_true]
        rintro stored rfl
        exact suits declared member rfl
      · simp only [Fields.get?_insert_of_ne here]
        exact before declared member
    · intro other member
      rcases Keyed.mem_keys_putSorted.mp member with rfl | there
      · exact declares
      · exact known other there

/-- A struct with a field removed is legal when every declaration of the field lets it be absent. -/
theorem fits_erase_iff {type name : String} {struct : StructDef} {fields : Fields Node}
    (fits : schema.Fits (.struct type) (.struct fields))
    (found : schema.struct? type = some struct) :
    schema.Fits (.struct type) (.struct (fields.erase name)) ↔
      ∀ declared ∈ struct.fields, declared.name = name → declared.presence.isDeletable = true := by
  obtain ⟨other, same, before, known⟩ := fits_struct_iff.mp fits
  cases found.symm.trans same
  constructor
  · intro after
    obtain ⟨other, same, left, -⟩ := fits_struct_iff.mp after
    cases found.symm.trans same
    rintro declared member rfl
    exact (left declared member).2 (Fields.get?_erase_self fields _)
  · intro suits
    refine fits_struct_iff.mpr ⟨struct, found, ?_, ?_⟩
    · intro declared member
      by_cases here : declared.name = name
      · subst here
        simp only [Fields.get?_erase_self, reduceCtorEq, false_implies, implies_true, true_and,
          true_implies]
        exact suits declared member rfl
      · simp only [Fields.get?_erase_of_ne here]
        exact before declared member
    · intro other member
      obtain ⟨entry, there, rfl⟩ := List.mem_map.mp member
      exact known entry.1 (List.mem_map_of_mem (Keyed.mem_of_mem_drop there))

theorem fits_catalog_insert_iff {entity : String} {entities : Catalog Node} {id : Identifier}
    {value : Node} (fits : schema.Fits (.catalog entity) (.catalog entities)) :
    schema.Fits (.catalog entity) (.catalog (entities.insert id value)) ↔
      schema.Fits (.struct entity) value ∧ value.entityId? = some id := by
  constructor
  · intro after
    exact fits_catalog_iff.mp after (id, value) (Keyed.mem_put_self id value entities.entries)
  · intro suits
    refine fits_catalog_iff.mpr fun entry member => ?_
    rcases Keyed.mem_of_mem_put member with rfl | there
    · exact suits
    · exact fits_catalog_iff.mp fits entry there

theorem fits_catalog_erase {entity : String} {entities : Catalog Node}
    (fits : schema.Fits (.catalog entity) (.catalog entities)) (id : Identifier) :
    schema.Fits (.catalog entity) (.catalog (entities.erase id)) :=
  fits_catalog_iff.mpr fun entry member =>
    fits_catalog_iff.mp fits entry (Keyed.mem_of_mem_drop member)

theorem fits_sideTable_insert_iff {domain : Path} {type : FieldType} {table : SideTable Node}
    {id : Identifier} {value : Node}
    (fits : schema.Fits (.sideTable domain type) (.sideTable table)) :
    schema.Fits (.sideTable domain type) (.sideTable (table.insert id value)) ↔
      schema.Fits type value := by
  obtain ⟨same, before⟩ := fits_sideTable_iff.mp fits
  constructor
  · intro after
    exact (fits_sideTable_iff.mp after).2 (id, value) (Keyed.mem_put_self id value table.entries)
  · intro suits
    refine fits_sideTable_iff.mpr ⟨same, fun entry member => ?_⟩
    rcases Keyed.mem_of_mem_put member with rfl | there
    · exact suits
    · exact before entry there

theorem fits_sideTable_erase {domain : Path} {type : FieldType} {table : SideTable Node}
    (fits : schema.Fits (.sideTable domain type) (.sideTable table)) (id : Identifier) :
    schema.Fits (.sideTable domain type) (.sideTable (table.erase id)) := by
  obtain ⟨same, before⟩ := fits_sideTable_iff.mp fits
  refine fits_sideTable_iff.mpr ⟨same, fun entry member => ?_⟩
  exact before entry (Keyed.mem_of_mem_drop member)

end Schema

/-! ### The identifier of an entity on the way -/

/-- A leaf has nothing below it to change. -/
theorem Changes.not_below_id {id : Identifier} {steps : List Step} {change : Option Node}
    {after : Node} (more : steps ≠ []) : ¬ Changes steps (.id id) change after := by
  intro changes
  cases changes
  exact more rfl

/-- A change below an entity leaves it its identifier in one case only: where it is stored or
deleted in the field `id` itself, what is stored has to be that identifier. -/
theorem Changes.entityId?_iff {steps : List Step} {node after : Node} {change : Option Node}
    {id : Identifier} (changes : Changes steps node change after) (more : steps ≠ [])
    (own : node.entityId? = some id) :
    after.entityId? = some id ↔
      ∀ deletable, steps = [.field "id" deletable] → change = some (.id id) := by
  cases changes with
  | replaced => exact absurd rfl more
  | @fieldStored name deletable fields value =>
      by_cases here : name = "id"
      · subst here
        simp [Node.entityId?_insert_id]
      · simp [Node.entityId?_insert_of_ne here, own, here]
  | @fieldErased name deletable fields current held =>
      by_cases here : name = "id"
      · subst here
        simp [Node.entityId?_erase_id]
      · simp [Node.entityId?_erase_of_ne here, own, here]
  | @belowField name deletable rest fields current after change further held onward =>
      have other : name ≠ "id" := by
        rintro rfl
        rw [Node.get?_id_of_entityId? own] at held
        cases held
        exact onward.not_below_id further
      simp [Node.entityId?_insert_of_ne other, own, other]
  | _ => cases own

/-! ### The whole way -/

/-- A change to a legal node gives a legal node exactly when it suits the types on the way. By
induction on the change: what it makes of each container on the way is legal exactly when what it
makes of the child is, and carries the key where that is an entity. -/
theorem Changes.fits_iff {schema : Schema} {steps : List Step} {node after : Node}
    {change : Option Node} (changes : Changes steps node change after) {type : FieldType}
    (fits : schema.Fits type node) :
    schema.Fits type after ↔ schema.Admits type steps change := by
  induction changes generalizing type with
  | replaced => exact (by rw [Schema.Admits])
  | @fieldStored name deletable fields value =>
      obtain ⟨type, rfl⟩ := fits.type_of_struct
      obtain ⟨struct, found, -⟩ := Schema.fits_struct_iff.mp fits
      rw [Schema.fits_insert_iff fits found]
      simp [Schema.Admits, found]
  | @fieldErased name deletable fields current held =>
      obtain ⟨type, rfl⟩ := fits.type_of_struct
      obtain ⟨struct, found, -, known⟩ := Schema.fits_struct_iff.mp fits
      have declares := known name (Keyed.mem_keys_of_lookup held)
      rw [Schema.fits_erase_iff fits found]
      simp [Schema.Admits, found, declares]
  | @belowField name deletable rest fields current after change more held onward ih =>
      obtain ⟨type, rfl⟩ := fits.type_of_struct
      obtain ⟨struct, found, -, known⟩ := Schema.fits_struct_iff.mp fits
      have declares := known name (Keyed.mem_keys_of_lookup held)
      rw [Schema.fits_insert_iff fits found]
      simp only [Schema.Admits, found, Option.some.injEq, exists_eq_left', declares, true_and,
        more, false_implies]
      refine forall₃_congr fun declared member here => ?_
      subst here
      exact ih (fits.field found member held)
  | @entityStored id entities value =>
      obtain ⟨entity, rfl⟩ := fits.type_of_catalog
      rw [Schema.fits_catalog_insert_iff fits]
      simp [Schema.Admits, KeepsId]
  | @entityErased id entities =>
      obtain ⟨entity, rfl⟩ := fits.type_of_catalog
      simp [Schema.Admits, KeepsId, Schema.fits_catalog_erase fits id]
  | @belowEntity id rest entities current after change more held onward ih =>
      obtain ⟨entity, rfl⟩ := fits.type_of_catalog
      obtain ⟨suits, own⟩ :=
        Schema.fits_catalog_iff.mp fits (id, current) (Keyed.mem_of_lookup held)
      rw [Schema.fits_catalog_insert_iff fits, ih suits, onward.entityId?_iff more own]
      simp [Schema.Admits, KeepsId, more]
  | @listed id domain inner rest listing value =>
      obtain ⟨declared, rfl⟩ := fits.type_of_listing
      have same := Schema.fits_listing_iff.mp fits
      have kept : (listing.insert id).domain = listing.domain := by
        unfold Listing.insert
        split <;> rfl
      simp [Schema.Admits, Schema.fits_listing_iff, kept, same]
  | @unlisted id domain inner rest listing =>
      obtain ⟨declared, rfl⟩ := fits.type_of_listing
      have same := Schema.fits_listing_iff.mp fits
      simp [Schema.Admits, Schema.fits_listing_iff, Listing.erase, same]
  | @valueStored id domain inner table value =>
      obtain ⟨declared, type, rfl⟩ := fits.type_of_sideTable
      rw [Schema.fits_sideTable_insert_iff fits]
      simp [Schema.Admits]
  | @valueErased id domain inner table =>
      obtain ⟨declared, type, rfl⟩ := fits.type_of_sideTable
      simp [Schema.Admits, Schema.fits_sideTable_erase fits id]
  | @belowValue id domain inner rest table current after change more held onward ih =>
      obtain ⟨declared, type, rfl⟩ := fits.type_of_sideTable
      have suits := (Schema.fits_sideTable_iff.mp fits).2 (id, current) (Keyed.mem_of_lookup held)
      rw [Schema.fits_sideTable_insert_iff fits, ih suits]
      simp [Schema.Admits]

/-! ### What the checks leave open -/

/-- No struct type declares a field twice. -/
def Schema.DistinctFields (schema : Schema) : Prop :=
  ∀ entry ∈ schema.types, (entry.2.fields.map FieldDef.name).Nodup

instance (schema : Schema) : Decidable schema.DistinctFields :=
  inferInstanceAs (Decidable (∀ entry ∈ schema.types, (entry.2.fields.map FieldDef.name).Nodup))

/-- A change gives an entity of a catalog, through its own field `id`, another identifier than its
key, or none. -/
def Rekeys (steps : List Step) (change : Option Node) : Prop :=
  ∃ front id deletable, steps = front ++ [.catalogEntry (some id), .field "id" deletable] ∧
    change ≠ some (.id id)

theorem not_rekeys_nil {change : Option Node} : ¬ Rekeys [] change := by
  rintro ⟨front, id, deletable, same, -⟩
  simp at same

theorem rekeys_cons_iff {step : Step} {rest : List Step} {change : Option Node} :
    Rekeys (step :: rest) change ↔
      (∃ id deletable, step = .catalogEntry (some id) ∧ rest = [.field "id" deletable] ∧
        change ≠ some (.id id)) ∨ Rekeys rest change := by
  constructor
  · rintro ⟨front, id, deletable, same, other⟩
    cases front with
    | nil =>
        cases same
        exact Or.inl ⟨id, deletable, rfl, rfl, other⟩
    | cons first front =>
        cases same
        exact Or.inr ⟨front, id, deletable, rfl, other⟩
  · rintro (⟨id, deletable, rfl, rfl, other⟩ | ⟨front, id, deletable, rfl, other⟩)
    · exact ⟨[], id, deletable, rfl, other⟩
    · exact ⟨step :: front, id, deletable, rfl, other⟩

/-- What is checked of a change without the tree: what is stored fits the target and an entity
carries its key, what is deleted is not required. -/
def Suits (schema : Schema) (target : FieldType) (steps : List Step) (change : Option Node) :
    Prop :=
  (∀ value, change = some value → schema.Fits target value ∧
    ∀ id, steps.getLast? = some (.catalogEntry (some id)) → value.entityId? = some id) ∧
  (change = none → ∀ name, steps.getLast? ≠ some (.field name false))

theorem Suits.tail {schema : Schema} {target : FieldType} {step : Step} {steps : List Step}
    {change : Option Node} (suits : Suits schema target (step :: steps) change) :
    Suits schema target steps change := by
  cases steps with
  | nil =>
      refine ⟨fun value stored => ⟨(suits.1 value stored).1, ?_⟩, ?_⟩
      · intro id last
        cases last
      · intro deleted name last
        cases last
  | cons next rest => simpa [Suits] using suits

/-- Where no field is declared twice, every declaration of a field is the first. -/
theorem Schema.DistinctFields.field?_eq {schema : Schema} (distinct : schema.DistinctFields)
    {type : String} {struct : StructDef} {declared : FieldDef}
    (found : schema.struct? type = some struct) (member : declared ∈ struct.fields) :
    struct.field? declared.name = some declared := by
  have apart := distinct (type, struct) (Keyed.mem_of_lookup found)
  cases first : struct.field? declared.name with
  | none =>
      have none := List.find?_eq_none.mp first declared member
      simp at none
  | some other =>
      obtain ⟨there, same⟩ := StructDef.mem_of_field? first
      exact congrArg some (List.inj_on_of_nodup_map apart there member same)

/-- Where no field is declared twice, the checks leave one thing open: the own identifier of an
entity that stays. By induction on the way that the schema resolves. -/
theorem Schema.Leads.admits_iff {schema : Schema} (distinct : schema.DistinctFields)
    {type target : FieldType} {segments : List Segment} {steps : List Step} {change : Option Node}
    (leads : schema.Leads type segments steps target)
    (free : ∀ segment ∈ segments, segment.isParameter = false)
    (suits : Suits schema target steps change) :
    schema.Admits type steps change ↔ ¬ Rekeys steps change := by
  induction leads with
  | here =>
      cases change with
      | none => simp [Admits, not_rekeys_nil]
      | some value => simp [Admits, not_rekeys_nil, (suits.1 value rfl).1]
  | @field type name struct declared segments steps target found named onward ih =>
      have admits := ih (List.forall_mem_cons.mp free).2 suits.tail
      obtain ⟨member, rfl⟩ := StructDef.mem_of_field? named
      rw [rekeys_cons_iff]
      simp only [reduceCtorEq, false_and, exists_false, false_or]
      rw [← admits, Admits]
      constructor
      · rintro ⟨other, same, -, every⟩
        cases found.symm.trans same
        exact (every declared member rfl).2
      · intro inner
        refine ⟨struct, found, by simp [named], fun other there same => ?_⟩
        have first := distinct.field?_eq found there
        rw [same, named] at first
        cases first
        refine ⟨fun last deleted => ?_, inner⟩
        subst last
        have kept := suits.2 deleted declared.name
        simpa using kept
  | @catalogEntry entity segment key segments steps target keyed onward ih =>
      obtain ⟨parameterless, free⟩ := List.forall_mem_cons.mp free
      obtain ⟨id, rfl⟩ := Segment.entryKey_eq_some parameterless keyed
      rw [rekeys_cons_iff, not_or, ← ih free suits.tail, Admits, and_comm]
      refine and_congr_left fun _ => ?_
      constructor
      · rintro ⟨-, keeps⟩ ⟨other, deletable, same, here, different⟩
        cases same
        exact different (keeps deletable here)
      · intro keeps
        refine ⟨?_, ?_⟩
        · rintro rfl value stored
          exact (suits.1 value stored).2 id rfl
        · intro deletable here
          by_contra different
          exact keeps ⟨id, deletable, rfl, here, different⟩
  | listingEntry keyed owner ih =>
      simp [Admits, rekeys_cons_iff, not_rekeys_nil]
  | @tableEntry domain value found segment key inner segments steps target keyed owner onward
      ihOwner ih =>
      rw [rekeys_cons_iff]
      simp only [reduceCtorEq, false_and, exists_false, false_or]
      rw [← ih (List.forall_mem_cons.mp free).2 suits.tail, Admits]

/-! ### Operations -/

/-- A change by the operation suits the types on its way. -/
def Operation.Admissible (operation : Operation) (schema : Schema) : Prop :=
  ∀ accessor, schema.resolve operation.target = .ok accessor →
    schema.Admits schema.rootType accessor.steps operation.value?

/-- The operation gives an entity that stays another identifier than its key. -/
def Operation.RekeysEntity (operation : Operation) (schema : Schema) : Prop :=
  ∃ accessor, schema.resolve operation.target = .ok accessor ∧
    Rekeys accessor.steps operation.value?

/-- An operation on a valid tree leaves a valid tree exactly when it is admissible. -/
theorem Operation.valid_apply_iff {operation : Operation} {schema : Schema} {root after : Node}
    (valid : schema.Valid root) (applied : operation.apply schema root = .ok (some after)) :
    schema.Valid after ↔ operation.Admissible schema := by
  obtain ⟨accessor, resolved, -, changes⟩ := changes_of_apply applied
  rw [Schema.valid_iff_fits, changes.fits_iff valid]
  constructor
  · intro admits other same
    cases resolved.symm.trans same
    exact admits
  · intro admissible
    exact admissible accessor resolved

theorem requireBound_eq_ok_iff {path : Path} :
    path.requireBound = .ok () ↔ path.isParameterized = false := by
  cases bound : path.isParameterized <;> simp [Path.requireBound, bound]

/-- The checks of an operation, on the steps of its target. -/
theorem Operation.Checked.suits {operation : Operation} {schema : Schema} {accessor : Accessor}
    (checked : operation.Checked schema accessor) :
    accessor.path.isParameterized = false ∧
      Suits schema accessor.target accessor.steps operation.value? := by
  unfold Checked at checked
  cases stored : operation.value? with
  | some value =>
      simp only [stored, Accessor.checkValue, bind_eq_ok_iff] at checked
      obtain ⟨⟨⟩, bound, ⟨⟩, fits, carries⟩ := checked
      refine ⟨requireBound_eq_ok_iff.mp bound, ?_, fun deleted => by cases deleted⟩
      rintro other same
      cases same
      refine ⟨Schema.validateAt_eq_ok_iff.mp fits, fun id last => ?_⟩
      simp only [Accessor.checkEntry, last] at carries
      by_contra different
      simp [different] at carries
  | none =>
      simp only [stored, Accessor.checkDeletable, bind_eq_ok_iff] at checked
      obtain ⟨⟨⟩, bound, deletable⟩ := checked
      refine ⟨requireBound_eq_ok_iff.mp bound, ?_, ?_⟩
      · intro value same
        cases same
      · intro _ name last
        simp [last] at deletable

/-- Where no field is declared twice, an operation with an effect is admissible unless it rekeys an
entity. -/
theorem Operation.admissible_iff {operation : Operation} {schema : Schema} {root after : Node}
    (distinct : schema.DistinctFields)
    (applied : operation.apply schema root = .ok (some after)) :
    operation.Admissible schema ↔ ¬ operation.RekeysEntity schema := by
  obtain ⟨accessor, resolved, checked, -⟩ := changes_of_apply applied
  obtain ⟨free, suits⟩ := checked.suits
  rw [Schema.path_of_resolve resolved, Path.isParameterized_eq_false_iff] at free
  have admits := (Schema.leads_of_resolve resolved).admits_iff distinct free suits
  constructor
  · rintro admissible ⟨other, same, rekeys⟩
    cases resolved.symm.trans same
    exact admits.mp (admissible accessor resolved) rekeys
  · intro keeps other same
    cases resolved.symm.trans same
    exact admits.mpr fun rekeys => keeps ⟨accessor, resolved, rekeys⟩

end StateTree
