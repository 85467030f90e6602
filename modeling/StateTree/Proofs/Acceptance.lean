/-
Module: StateTree.Proofs.Acceptance
Purpose: What a schema that can be built is like. The types that its fields name are there, the
  domain of each field that is a listing or a side table is sound, and the defaults fit. Domains
  inside the values of side tables are not looked at: these alone may be unsound, and a path meets
  one only straight below an entry of a side table.
-/
import StateTree.Proofs.Completion
import StateTree.Proofs.Reading

namespace StateTree

/-- The domains that the values of a side table name. -/
def FieldType.innerDomains : FieldType → List Path
  | .sideTable _ value => value.domains
  | _ => []

namespace Schema

variable {schema : Schema}

/-- A domain is free of parameters and leads to a catalog. -/
def SoundDomain (schema : Schema) (domain : Path) : Prop :=
  domain.isParameterized = false ∧
    ∃ accessor entity, schema.resolve domain = .ok accessor ∧ accessor.target = .catalog entity

/-- The types that a type names are defined, and those of catalogs are entities. -/
def Knows (schema : Schema) : FieldType → Prop
  | .struct name => (schema.struct? name).isSome = true
  | .catalog entity => ∃ struct, schema.struct? entity = some struct ∧ struct.isEntity = true
  | .reference target => schema.Knows target
  | .sideTable _ value => schema.Knows value
  | _ => True

/-- What a declaration has to satisfy. Of the domains that its type names only the field's own one
is asked for. -/
structure Accepts (schema : Schema) (field : FieldDef) : Prop where
  known : schema.Knows field.type
  owned : ∀ domain, ownDomain? field.type = some domain → schema.SoundDomain domain
  suited : ∀ value, field.presence = .polyfill value → schema.Fits field.type value

/-! ### The checks of a declaration -/

theorem checkType_eq_ok_iff {owner field : String} {type : FieldType} :
    schema.checkType owner field type = .ok () ↔ schema.Knows type := by
  induction type with
  | struct name =>
      unfold checkType Knows
      split <;> simp_all
  | catalog entity =>
      unfold checkType Knows
      cases schema.struct? entity with
      | none => simp
      | some struct => cases entity : struct.isEntity <;> simp [entity]
  | reference target ih => exact ih
  | sideTable domain value ih => exact ih
  | _ => simp [checkType, Knows]

theorem checkDomain_eq_ok_iff {owner field : String} {domain : Path} :
    schema.checkDomain owner field domain = .ok () ↔ schema.SoundDomain domain := by
  unfold checkDomain SoundDomain
  cases domain.isParameterized with
  | true => simp
  | false =>
      cases schema.resolve domain with
      | error cause => simp
      | ok accessor => cases shape : accessor.target <;> simp [shape]

theorem checkDefault_eq_ok_iff {owner : String} {field : FieldDef} :
    schema.checkDefault owner field = .ok () ↔
      ∀ value, field.presence = .polyfill value → schema.Fits field.type value := by
  unfold checkDefault
  cases field.presence with
  | polyfill value =>
      simp only [Presence.polyfill.injEq, forall_eq']
      have checked : schema.validateAt field.type value (Path.root.field field.name) = .ok () ↔
          schema.Fits field.type value := validateAt_eq_ok_iff
      rw [← checked]
      split <;> simp_all
  | required => simp
  | optional => simp

/-! ### Building -/

/-- A builder makes the schema of its definitions if the root's type is among them and each
declaration is accepted, and nothing else. -/
theorem build_eq_ok_iff {builder : SchemaBuilder} :
    builder.build = .ok schema ↔
      schema = ⟨builder.root, builder.types⟩ ∧ (schema.struct? schema.root).isSome = true ∧
        ∀ declaration ∈ schema.declarations, schema.Accepts declaration.2 := by
  constructor
  · intro built
    unfold SchemaBuilder.build at built
    dsimp only at built
    split at built
    · rename_i defined
      obtain ⟨⟨⟩, types, built⟩ := bind_eq_ok_iff.mp built
      obtain ⟨⟨⟩, domains, built⟩ := bind_eq_ok_iff.mp built
      obtain ⟨⟨⟩, defaults, same⟩ := bind_eq_ok_iff.mp built
      cases same
      refine ⟨rfl, defined, fun declaration member => ⟨?_, ?_, ?_⟩⟩
      · exact checkType_eq_ok_iff.mp (forM_eq_ok_iff.mp types declaration member)
      · intro domain own
        have checked := forM_eq_ok_iff.mp domains declaration member
        simp only [own] at checked
        exact checkDomain_eq_ok_iff.mp checked
      · exact checkDefault_eq_ok_iff.mp (forM_eq_ok_iff.mp defaults declaration member)
    · cases built
  · rintro ⟨rfl, defined, accepted⟩
    unfold SchemaBuilder.build
    dsimp only
    rw [if_pos defined]
    refine bind_eq_ok_iff.mpr ⟨(), forM_eq_ok_iff.mpr fun declaration member => ?_, ?_⟩
    · exact checkType_eq_ok_iff.mpr (accepted declaration member).known
    refine bind_eq_ok_iff.mpr ⟨(), forM_eq_ok_iff.mpr fun declaration member => ?_, ?_⟩
    · cases own : ownDomain? declaration.2.type with
      | none => rfl
      | some domain =>
          exact checkDomain_eq_ok_iff.mpr ((accepted declaration member).owned domain own)
    refine bind_eq_ok_iff.mpr ⟨(), forM_eq_ok_iff.mpr fun declaration member => ?_, rfl⟩
    exact checkDefault_eq_ok_iff.mpr (accepted declaration member).suited

/-! ### Domains -/

theorem mem_domains_iff {domain : Path} {type : FieldType} :
    domain ∈ type.domains ↔ ownDomain? type = some domain ∨ domain ∈ type.innerDomains := by
  cases type <;> simp [FieldType.domains, FieldType.innerDomains, ownDomain?, eq_comm]

/-- Where fields have sound domains, a location with an unsound one is where the way began, or an
entry of a side table. By induction on the way. -/
theorem Leads.ownDomain_cases
    (accepted : ∀ declaration ∈ schema.declarations, schema.Accepts declaration.2)
    {type target : FieldType} {segments : List Segment} {steps : List Step}
    (leads : schema.Leads type segments steps target) {domain : Path}
    (own : ownDomain? target = some domain) :
    schema.SoundDomain domain ∨ (steps = [] ∧ type = target) ∨
      ∃ front key owner inner, steps = front ++ [.tableEntry key owner inner] := by
  induction leads with
  | here => exact Or.inr (Or.inl ⟨rfl, rfl⟩)
  | field found named onward ih =>
      obtain sound | ⟨rfl, rfl⟩ | ⟨front, key, owner, inner, rfl⟩ := ih own
      · exact Or.inl sound
      · have declared := mem_declarations (Keyed.mem_of_lookup found)
          (StructDef.mem_of_field? named).1
        exact Or.inl ((accepted _ declared).owned domain own)
      · exact Or.inr (Or.inr ⟨_ :: front, key, owner, inner, rfl⟩)
  | catalogEntry keyed onward ih =>
      obtain sound | ⟨rfl, rfl⟩ | ⟨front, key, owner, inner, rfl⟩ := ih own
      · exact Or.inl sound
      · cases own
      · exact Or.inr (Or.inr ⟨_ :: front, key, owner, inner, rfl⟩)
  | listingEntry keyed owner => cases own
  | tableEntry keyed owner onward ihOwner ih =>
      obtain sound | ⟨rfl, rfl⟩ | ⟨front, key, owner, inner, rfl⟩ := ih own
      · exact Or.inl sound
      · exact Or.inr (Or.inr ⟨[], _, _, _, rfl⟩)
      · exact Or.inr (Or.inr ⟨_ :: front, key, owner, inner, rfl⟩)

/-- A schema that was built has sound domains everywhere exactly when those inside the values of its
side tables are sound. An unsound one lies straight below an entry of a side table: any other
location that a path leads to, if it is a listing or a side table, has a sound domain. -/
theorem soundDomains_iff_of_build {builder : SchemaBuilder} (built : builder.build = .ok schema) :
    (schema.SoundDomains ↔ ∀ declaration ∈ schema.declarations,
        ∀ domain ∈ declaration.2.type.innerDomains, schema.SoundDomain domain) ∧
      ∀ path accessor, schema.resolve path = .ok accessor →
        ∀ domain, ownDomain? accessor.target = some domain →
          schema.SoundDomain domain ∨
            ∃ front key owner inner, accessor.steps = front ++ [.tableEntry key owner inner] := by
  obtain ⟨-, -, accepted⟩ := build_eq_ok_iff.mp built
  constructor
  · constructor
    · intro sound declaration member domain inside
      exact sound domain
        (List.mem_flatMap.mpr ⟨declaration, member, mem_domains_iff.mpr (Or.inr inside)⟩)
    · intro inner domain named
      obtain ⟨declaration, member, named⟩ := List.mem_flatMap.mp named
      rcases mem_domains_iff.mp named with own | inside
      · exact (accepted declaration member).owned domain own
      · exact inner declaration member domain inside
  · intro path accessor resolved domain own
    rcases (leads_of_resolve resolved).ownDomain_cases accepted own with
      sound | ⟨-, start⟩ | straight
    · exact Or.inl sound
    · rw [← start] at own
      cases own
    · exact Or.inr straight

end Schema

/-! ### A sample with a domain that is no catalog -/

namespace Sample

/-- Each item has a table whose domain is the title. -/
def stray : StructDef :=
  ⟨"Root", [⟨"title", .str, .required⟩, ⟨"items", .catalog "Item", .required⟩,
    ⟨"notes", .sideTable (.ofNames ["items"]) (.sideTable (.ofNames ["title"]) .int), .required⟩]⟩

def item : StructDef := ⟨"Item", [⟨"id", .identifier, .required⟩]⟩

def straySchema : Schema := ⟨"Root", [("Item", item), ("Root", stray)]⟩

theorem stray_built :
    (((SchemaBuilder.new "Root").define stray).define item).build = .ok straySchema :=
  eq_ok_of_toOption (by decide +kernel)

/-- The way to the table of the item `a`. -/
def strayNotes : Accessor :=
  ⟨.ofNames ["notes", "a"],
    [.field "notes" false, .tableEntry (some a) (.ofNames ["items"]) [.field "items" false]],
    .sideTable (.ofNames ["title"]) .int⟩

theorem title_unsound : ¬ straySchema.SoundDomain (.ofNames ["title"]) := by
  rintro ⟨-, accessor, entity, resolved, shape⟩
  have found : straySchema.resolve (.ofNames ["title"]) =
      .ok ⟨.ofNames ["title"], [.field "title" false], .str⟩ := rfl
  cases found.symm.trans resolved
  cases shape

/-- A schema is built although the domain inside the values of a side table is no catalog. -/
theorem stray_unsound :
    (((SchemaBuilder.new "Root").define stray).define item).build = .ok straySchema ∧
      ¬ straySchema.SoundDomains :=
  ⟨stray_built, fun sound => title_unsound (sound _ (by decide +kernel))⟩

/-- The location with the unsound domain is an entry of a side table. -/
theorem stray_below_entry :
    (((SchemaBuilder.new "Root").define stray).define item).build = .ok straySchema ∧
      straySchema.resolve strayNotes.path = .ok strayNotes ∧
        ∃ front key owner inner, strayNotes.steps = front ++ [.tableEntry key owner inner] := by
  have resolved : straySchema.resolve strayNotes.path = .ok strayNotes := rfl
  refine ⟨stray_built, resolved, ?_⟩
  exact ((Schema.soundDomains_iff_of_build stray_built).2 _ _ resolved _ rfl).resolve_left
    title_unsound

end Sample

end StateTree
