/-
Module: StateTree.Proofs.Resolution
Purpose: Resolution as a relation. A type, segments, the steps they stand for and the type at their
  end are related by the shape of the type, one case for each kind of step; the domains on the way
  are related from the root of the tree. What a schema resolves is an instance of the relation, so
  that statements on accessors are proved by induction on it.
-/
import StateTree.Proofs.Typing
import StateTree.Accessor.Basic

namespace StateTree

/-- The first declaration of a field is one of the declarations of its struct. -/
theorem StructDef.mem_of_field? {struct : StructDef} {name : String} {declared : FieldDef}
    (named : struct.field? name = some declared) :
    declared ∈ struct.fields ∧ declared.name = name := by
  refine ⟨List.mem_of_find?_eq_some named, ?_⟩
  simpa using List.find?_some named

/-- A segment that is no parameter names an entry. -/
theorem Segment.entryKey_eq_some {segment : Segment} {key : Option Identifier}
    (named : segment.isParameter = false) (keyed : segment.entryKey = .ok key) :
    ∃ id, key = some id := by
  cases segment with
  | parameter label => cases named
  | name text =>
      simp only [Segment.entryKey] at keyed
      split at keyed
      · rename_i id read
        cases keyed
        exact ⟨id, rfl⟩
      · cases keyed

/-- The segment of an entry has its identifier for a key. -/
theorem Segment.entryKey_entry (id : Identifier) : (Segment.entry id).entryKey = .ok (some id) := by
  simp [entry, entryKey, Identifier.ofString, Identifier.ofString?_text]

theorem Segment.entry_injective : Function.Injective Segment.entry := fun _ _ same =>
  Identifier.ext_text (Segment.name.inj same)

/-- A path has no parameters when none of its segments is one. -/
theorem Path.isParameterized_eq_false_iff {path : Path} :
    path.isParameterized = false ↔ ∀ segment ∈ path.segments, segment.isParameter = false := by
  simp [Path.isParameterized]

namespace Schema

/-- Segments lead from a location of one type to a location of another, by these steps. -/
inductive Leads (schema : Schema) : FieldType → List Segment → List Step → FieldType → Prop
  | here {type : FieldType} : Leads schema type [] [] type
  | field {type name : String} {struct : StructDef} {declared : FieldDef}
      {segments : List Segment} {steps : List Step} {target : FieldType}
      (found : schema.struct? type = some struct) (named : struct.field? name = some declared)
      (onward : Leads schema declared.type segments steps target) :
      Leads schema (.struct type) (.name name :: segments)
        (.field name declared.presence.isDeletable :: steps) target
  | catalogEntry {entity : String} {segment : Segment} {key : Option Identifier}
      {segments : List Segment} {steps : List Step} {target : FieldType}
      (keyed : segment.entryKey = .ok key)
      (onward : Leads schema (.struct entity) segments steps target) :
      Leads schema (.catalog entity) (segment :: segments) (.catalogEntry key :: steps) target
  /-- Nothing is below an entry of a listing. -/
  | listingEntry {domain : Path} {entity : String} {segment : Segment} {key : Option Identifier}
      {inner : List Step} (keyed : segment.entryKey = .ok key)
      (owner : Leads schema schema.rootType domain.segments inner (.catalog entity)) :
      Leads schema (.listing domain) [segment] [.listingEntry key domain inner] (.struct entity)
  | tableEntry {domain : Path} {value found : FieldType} {segment : Segment}
      {key : Option Identifier} {inner : List Step} {segments : List Segment} {steps : List Step}
      {target : FieldType} (keyed : segment.entryKey = .ok key)
      (owner : Leads schema schema.rootType domain.segments inner found)
      (onward : Leads schema value segments steps target) :
      Leads schema (.sideTable domain value) (segment :: segments)
        (.tableEntry key domain inner :: steps) target

/-! ### What a schema resolves -/

/-- Steps along segments are an instance of the relation, if those of the domains are. -/
theorem leads_of_stepsAlong {schema : Schema} {domainAt : Path → Except TreeError Accessor}
    {path : Path}
    (domainsLead : ∀ domain accessor, domainAt domain = .ok accessor →
      schema.Leads schema.rootType domain.segments accessor.steps accessor.target)
    {segments : List Segment} {index : Nat} {type target : FieldType} {steps : List Step}
    (along : schema.stepsAlong domainAt path index type segments = .ok (steps, target)) :
    schema.Leads type segments steps target := by
  induction segments generalizing index type steps with
  | nil =>
      cases along
      exact .here
  | cons segment rest ih =>
      rw [stepsAlong, bind_eq_ok_iff] at along
      obtain ⟨⟨step, next⟩, stepped, along⟩ := along
      obtain ⟨⟨more, reached⟩, onward, same⟩ := bind_eq_ok_iff.mp along
      cases same
      have led := ih onward
      cases type with
      | struct type =>
          cases segment with
          | parameter label => cases stepped
          | name name =>
              obtain ⟨struct, found, stepped⟩ := bind_eq_ok_iff.mp stepped
              cases named : struct.field? name with
              | none => simp [named] at stepped
              | some declared =>
                  simp only [named] at stepped
                  cases stepped
                  exact .field (requireStruct_eq_ok_iff.mp found) named led
      | catalog entity =>
          obtain ⟨key, keyed, stepped⟩ := bind_eq_ok_iff.mp stepped
          cases stepped
          exact .catalogEntry keyed led
      | listing domain =>
          cases rest with
          | cons following rest => cases stepped
          | nil =>
              obtain ⟨resolved, found, stepped⟩ := bind_eq_ok_iff.mp stepped
              have owner := domainsLead domain resolved found
              cases shape : resolved.target with
              | catalog entity =>
                  simp only [shape] at stepped owner
                  obtain ⟨key, keyed, stepped⟩ := bind_eq_ok_iff.mp stepped
                  cases stepped
                  cases led
                  exact .listingEntry keyed owner
              | _ => simp [shape] at stepped
      | sideTable domain value =>
          obtain ⟨resolved, found, stepped⟩ := bind_eq_ok_iff.mp stepped
          obtain ⟨key, keyed, stepped⟩ := bind_eq_ok_iff.mp stepped
          cases stepped
          exact .tableEntry keyed (domainsLead domain resolved found) led
      | _ => cases stepped

/-- What is resolved within some depth is an instance of the relation. -/
theorem leads_of_resolveWithin {schema : Schema} {depth : Nat} {path : Path} {accessor : Accessor}
    (resolved : schema.resolveWithin depth path = .ok accessor) :
    accessor.path = path ∧
      schema.Leads schema.rootType path.segments accessor.steps accessor.target := by
  induction depth generalizing path accessor with
  | zero => cases resolved
  | succ depth ih =>
      obtain ⟨⟨steps, target⟩, along, same⟩ := bind_eq_ok_iff.mp resolved
      cases same
      exact ⟨rfl, leads_of_stepsAlong (fun _ _ found => (ih found).2) along⟩

/-- An accessor leads along its path from the root to its target. -/
theorem leads_of_resolve {schema : Schema} {path : Path} {accessor : Accessor}
    (resolved : schema.resolve path = .ok accessor) :
    schema.Leads schema.rootType path.segments accessor.steps accessor.target :=
  (leads_of_resolveWithin resolved).2

/-- An accessor has the path it was resolved from. -/
theorem path_of_resolve {schema : Schema} {path : Path} {accessor : Accessor}
    (resolved : schema.resolve path = .ok accessor) : accessor.path = path :=
  (leads_of_resolveWithin resolved).1

/-- A path resolves as one of a kind if it resolves and the kind accepts what it leads to. -/
theorem resolveAs_eq_ok_iff {schema : Schema} {path : Path} {kind : Kind} {accessor : Accessor} :
    schema.resolveAs path kind = .ok accessor ↔
      schema.resolve path = .ok accessor ∧ kind.accepts accessor.target = true := by
  have checks (found : Accessor) :
      found.checkKind kind = .ok () ↔ kind.accepts found.target = true := by
    unfold Accessor.checkKind
    split <;> simp_all
  constructor
  · intro resolved
    obtain ⟨found, resolved, checked⟩ := bind_eq_ok_iff.mp resolved
    obtain ⟨⟨⟩, checked, same⟩ := bind_eq_ok_iff.mp checked
    cases same
    exact ⟨resolved, (checks _).mp checked⟩
  · rintro ⟨resolved, accepts⟩
    refine bind_eq_ok_iff.mpr ⟨accessor, resolved, ?_⟩
    exact bind_eq_ok_iff.mpr ⟨(), (checks accessor).mpr accepts, rfl⟩

/-- Segments lead one way only. -/
theorem Leads.unique {schema : Schema} {type target other : FieldType} {segments : List Segment}
    {steps more : List Step} (leads : schema.Leads type segments steps target)
    (others : schema.Leads type segments more other) : steps = more ∧ target = other := by
  induction leads generalizing more other with
  | here =>
      cases others
      exact ⟨rfl, rfl⟩
  | field found named _ ih =>
      cases others with
      | field found' named' onward' =>
          cases found.symm.trans found'
          cases named.symm.trans named'
          obtain ⟨rfl, rfl⟩ := ih onward'
          exact ⟨rfl, rfl⟩
  | catalogEntry keyed _ ih =>
      cases others with
      | catalogEntry keyed' onward' =>
          cases keyed.symm.trans keyed'
          obtain ⟨rfl, rfl⟩ := ih onward'
          exact ⟨rfl, rfl⟩
  | listingEntry keyed _ ih =>
      cases others with
      | listingEntry keyed' owner' =>
          cases keyed.symm.trans keyed'
          obtain ⟨rfl, same⟩ := ih owner'
          cases same
          exact ⟨rfl, rfl⟩
  | tableEntry keyed _ _ ihOwner ih =>
      cases others with
      | tableEntry keyed' owner' onward' =>
          cases keyed.symm.trans keyed'
          obtain ⟨rfl, -⟩ := ihOwner owner'
          obtain ⟨rfl, rfl⟩ := ih onward'
          exact ⟨rfl, rfl⟩

/-- The domains that a declared field names are among those of the schema. -/
theorem domains_of_declared {schema : Schema} {type : String} {struct : StructDef}
    {declared : FieldDef} (found : schema.struct? type = some struct)
    (member : declared ∈ struct.fields) : declared.type.domains ⊆ schema.domains := by
  intro domain named
  refine List.mem_flatMap.mpr ⟨(struct, declared), ?_, named⟩
  refine List.mem_flatMap.mpr ⟨(type, struct), Keyed.mem_of_lookup found, ?_⟩
  exact List.mem_map_of_mem member

end Schema

end StateTree
