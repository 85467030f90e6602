/-
Module: StateTree.Proofs.Reading
Purpose: Reading is sound. In a valid tree an accessor finds a value of its target type or finds
  that nothing is there; no other fault can come up.
-/
import StateTree.Proofs.Resolution
import StateTree.Accessor.Read

namespace StateTree

/-- Every domain that the types of a schema name, at any depth that paths can reach, is free of
parameters and leads to a catalog. One that leads through itself does not resolve. -/
def Schema.SoundDomains (schema : Schema) : Prop :=
  ∀ domain ∈ schema.domains, domain.isParameterized = false ∧
    ∃ accessor entity, schema.resolve domain = .ok accessor ∧ accessor.target = .catalog entity

/-- The outcome of reading at a path: a value of the type, or nothing there. -/
def Reaches (schema : Schema) (type : FieldType) (path : Path)
    (outcome : Except TreeError Node) : Prop :=
  (∃ node, outcome = .ok node ∧ schema.Fits type node) ∨ outcome = .error (.nonexistent path)

namespace Reaches

variable {schema : Schema} {type : FieldType} {path : Path}

/-- A value of the type is reached. -/
theorem of_fits {node : Node} (fits : schema.Fits type node) :
    Reaches schema type path (.ok node) :=
  Or.inl ⟨node, rfl, fits⟩

/-- What may be held and is of the type is reached or absent. -/
theorem of_held {held : Option Node} (fits : ∀ node, held = some node → schema.Fits type node) :
    Reaches schema type path (orNonexistent path held) := by
  cases held with
  | none => exact Or.inr rfl
  | some node => exact of_fits (fits node rfl)

/-- What is reached from what was reached. -/
theorem bind {between : FieldType} {first : Except TreeError Node}
    {onward : Node → Except TreeError Node} (reaches : Reaches schema between path first)
    (further : ∀ node, schema.Fits between node → Reaches schema type path (onward node)) :
    Reaches schema type path (first >>= onward) := by
  rcases reaches with ⟨node, rfl, fits⟩ | rfl
  · exact further node fits
  · exact Or.inr rfl

/-- A domain that holds a catalog, or is absent, is read as a catalog or as absent. -/
theorem domainCatalog_cases {entity : String} {domain : Path} {outcome : Except TreeError Node}
    (reaches : Reaches schema (.catalog entity) domain outcome) (path : Path) :
    (∃ entities, domainCatalog path outcome = .ok entities ∧
        schema.Fits (.catalog entity) (.catalog entities)) ∨
      domainCatalog path outcome = .error (.nonexistent path) := by
  rcases reaches with ⟨node, rfl, fits⟩ | rfl
  · obtain ⟨entities, rfl⟩ := fits.catalog_inv
    exact Or.inl ⟨entities, rfl, fits⟩
  · exact Or.inr rfl

end Reaches

namespace Schema

variable {schema : Schema}

/-! ### What containers hold -/

/-- What a catalog has under a key is an entity of its type. -/
theorem Fits.entity {entity : String} {entities : Catalog Node} {id : Identifier} {value : Node}
    (fits : schema.Fits (.catalog entity) (.catalog entities))
    (held : entities.get? id = some value) : schema.Fits (.struct entity) value :=
  (fits_catalog_iff.mp fits (id, value) (Keyed.mem_of_lookup held)).1

/-- What a side table has under a key is a value of its type. -/
theorem Fits.tableValue {domain : Path} {type : FieldType} {table : SideTable Node}
    {id : Identifier} {value : Node}
    (fits : schema.Fits (.sideTable domain type) (.sideTable table))
    (held : table.get? id = some value) : schema.Fits type value :=
  (fits_sideTable_iff.mp fits).2 (id, value) (Keyed.mem_of_lookup held)

/-- The steps of a domain lead to a catalog. -/
theorem SoundDomains.leads_catalog (sound : schema.SoundDomains) {domain : Path}
    (named : domain ∈ schema.domains) {inner : List Step} {found : FieldType}
    (owner : schema.Leads schema.rootType domain.segments inner found) :
    ∃ entity, found = .catalog entity := by
  obtain ⟨-, accessor, entity, resolved, shape⟩ := sound domain named
  obtain ⟨-, same⟩ := owner.unique (leads_of_resolve resolved)
  exact ⟨entity, same.trans shape⟩

/-! ### One step -/

variable {root : Node} {path domain : Path} {id : Identifier} {inner : List Step} {entity : String}

theorem readStep_field_reaches {type name : String} {struct : StructDef} {declared : FieldDef}
    {node : Node} (found : schema.struct? type = some struct)
    (named : struct.field? name = some declared) (fits : schema.Fits (.struct type) node)
    (deletable : Bool) :
    Reaches schema declared.type path (readStep root path (.field name deletable) node) := by
  obtain ⟨fields, rfl⟩ := fits.struct_inv
  obtain ⟨member, rfl⟩ := StructDef.mem_of_field? named
  exact .of_held fun value held => fits.field found member held

theorem readStep_catalogEntry_reaches {node : Node} (fits : schema.Fits (.catalog entity) node) :
    Reaches schema (.struct entity) path (readStep root path (.catalogEntry (some id)) node) := by
  obtain ⟨entities, rfl⟩ := fits.catalog_inv
  exact .of_held fun value held => fits.entity held

/-- An entry of a listing is the entity in the catalog of the domain. -/
theorem readStep_listingEntry_reaches {node : Node} (fits : schema.Fits (.listing domain) node)
    (bound : domain.isParameterized = false)
    (owner : Reaches schema (.catalog entity) domain (readSteps root domain inner root)) :
    Reaches schema (.struct entity) path
      (readStep root path (.listingEntry (some id) domain inner) node) := by
  obtain ⟨listing, rfl⟩ := fits.listing_inv
  simp only [readStep, orUnbound, Node.asListing, locate, Path.requireBound, bound, ok_bind]
  cases listed : listing.contains id with
  | false => exact Or.inr rfl
  | true =>
      rcases owner.domainCatalog_cases path with ⟨entities, read, owned⟩ | read
      · simp only [read, ok_bind, if_true]
        exact .of_held fun value held => owned.entity held
      · simp only [read, error_bind, if_true]
        exact Or.inr rfl

/-- An entry of a side table is its value, while the catalog of the domain has the entity. -/
theorem readStep_tableEntry_reaches (entity : String) {value : FieldType} {node : Node}
    (fits : schema.Fits (.sideTable domain value) node) (bound : domain.isParameterized = false)
    (owner : Reaches schema (.catalog entity) domain (readSteps root domain inner root)) :
    Reaches schema value path (readStep root path (.tableEntry (some id) domain inner) node) := by
  obtain ⟨table, rfl⟩ := fits.sideTable_inv
  simp only [readStep, orUnbound, Node.asSideTable, locate, Path.requireBound, bound, ok_bind]
  refine Reaches.bind (.of_held fun held found => fits.tableValue found) fun held fits => ?_
  rcases owner.domainCatalog_cases path with ⟨entities, read, -⟩ | read
  · simp only [read, ok_bind]
    cases owned : entities.contains id with
    | false => exact Or.inr rfl
    | true => exact .of_fits fits
  · simp only [read, error_bind]
    exact Or.inr rfl

/-! ### All steps -/

/-- Following steps from a node of their type reaches a value of the type they end at. By induction
on the relation, in which the steps of a domain are followed from the root. -/
theorem Leads.reaches (sound : schema.SoundDomains) (valid : schema.Valid root)
    {type target : FieldType} {segments : List Segment} {steps : List Step}
    (leads : schema.Leads type segments steps target) (path : Path) {node : Node}
    (free : ∀ segment ∈ segments, segment.isParameter = false)
    (named : type.domains ⊆ schema.domains) (fits : schema.Fits type node) :
    Reaches schema target path (readSteps root path steps node) := by
  induction leads generalizing path node with
  | here => exact .of_fits fits
  | field found first onward ih =>
      refine Reaches.bind (readStep_field_reaches found first fits _) fun next fits => ?_
      have member := (StructDef.mem_of_field? first).1
      exact ih path (List.forall_mem_cons.mp free).2 (domains_of_declared found member) fits
  | catalogEntry keyed onward ih =>
      obtain ⟨parameterless, free⟩ := List.forall_mem_cons.mp free
      obtain ⟨id, rfl⟩ := Segment.entryKey_eq_some parameterless keyed
      refine Reaches.bind (readStep_catalogEntry_reaches fits) fun next fits => ?_
      exact ih path free (List.nil_subset _) fits
  | listingEntry keyed owner ih =>
      obtain ⟨parameterless, -⟩ := List.forall_mem_cons.mp free
      obtain ⟨id, rfl⟩ := Segment.entryKey_eq_some parameterless keyed
      have bound := (sound _ (named List.mem_cons_self)).1
      have bare := Path.isParameterized_eq_false_iff.mp bound
      refine Reaches.bind (readStep_listingEntry_reaches fits bound ?_) fun _ => .of_fits
      exact ih _ bare (List.nil_subset _) valid
  | tableEntry keyed owner onward ihOwner ih =>
      obtain ⟨parameterless, free⟩ := List.forall_mem_cons.mp free
      obtain ⟨id, rfl⟩ := Segment.entryKey_eq_some parameterless keyed
      have declared := named List.mem_cons_self
      have bound := (sound _ declared).1
      obtain ⟨entity, rfl⟩ := sound.leads_catalog declared owner
      have bare := Path.isParameterized_eq_false_iff.mp bound
      refine Reaches.bind (readStep_tableEntry_reaches entity fits bound ?_) fun next fits => ?_
      · exact ihOwner _ bare (List.nil_subset _) valid
      · exact ih path free (fun other deeper => named (List.mem_cons_of_mem _ deeper)) fits

end Schema

/-- Reading a valid tree through a path without parameters gives a value that is legal at the
path's target type, or says that nothing is there. -/
theorem Accessor.get_sound {schema : Schema} {root : Node} {path : Path} {accessor : Accessor}
    (sound : schema.SoundDomains) (valid : schema.Valid root)
    (free : path.isParameterized = false) (resolved : schema.resolve path = .ok accessor) :
    (∃ node, accessor.get root = .ok node ∧
        schema.validateAt accessor.target node path = .ok ()) ∨
      accessor.get root = .error (.nonexistent path) := by
  have leads := Schema.leads_of_resolve resolved
  obtain rfl := Schema.path_of_resolve resolved
  have reaches := leads.reaches sound valid accessor.path
    (Path.isParameterized_eq_false_iff.mp free) (List.nil_subset _) valid
  have read : accessor.get root = readSteps root accessor.path accessor.steps root := by
    simp [Accessor.get, Path.requireBound, free]
  rw [read]
  rcases reaches with ⟨node, found, fits⟩ | absent
  · exact Or.inl ⟨node, found, Schema.validateAt_eq_ok_iff.mpr fits⟩
  · exact Or.inr absent

/-! ### In the sample -/

namespace Sample

theorem soundDomains : schema.SoundDomains := by
  intro domain named
  have only : domain = targets := by
    have both : domain ∈ [targets, targets] := named
    simpa using both
  subst only
  exact ⟨rfl, ⟨targets, [.field "targets" false], .catalog "Target"⟩, "Target", rfl, rfl⟩

/-- The way to the target `a` through the listing. -/
def chosen : Accessor :=
  ⟨.ofNames ["chosen", "a"],
    [.field "chosen" false, .listingEntry (some a) targets [.field "targets" false]],
    .struct "Target"⟩

/-- Through the listing of the sample its target is read. -/
theorem chosen_get_sound :
    schema.SoundDomains ∧ schema.Valid tree ∧ chosen.path.isParameterized = false ∧
      schema.resolve chosen.path = .ok chosen ∧
      ((∃ node, chosen.get tree = .ok node ∧
          schema.validateAt chosen.target node chosen.path = .ok ()) ∨
        chosen.get tree = .error (.nonexistent chosen.path)) :=
  ⟨soundDomains, valid, rfl, rfl, Accessor.get_sound soundDomains valid rfl rfl⟩

end Sample

end StateTree
