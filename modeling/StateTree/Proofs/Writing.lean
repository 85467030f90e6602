/-
Module: StateTree.Proofs.Writing
Purpose: What was written is read back. A write can change no key of a domain that its own path
  consults: its path goes through that domain, so it goes through more domains than the way to the
  domain does, and can neither lead to the domain nor to an entry of it. So a value is read back
  exactly while the side tables on its way have their entities, and an entry of a listing is read
  as the entity that its domain has.
-/
import StateTree.Proofs.Locations
import StateTree.Proofs.Reading
import StateTree.Schema.Build

namespace StateTree

mutual

/-- How many domains, one nested in another, a step goes through. -/
def Step.depth : Step → Nat
  | .field .. => 0
  | .catalogEntry _ => 0
  | .listingEntry _ _ inner => Step.depthOf inner + 1
  | .tableEntry _ _ inner => Step.depthOf inner + 1

/-- How many domains, one nested in another, steps go through. -/
def Step.depthOf : List Step → Nat
  | [] => 0
  | step :: rest => max step.depth (Step.depthOf rest)

end

/-- The domain that a step consults, with its steps. -/
def Step.domain? : Step → Option (Path × List Step)
  | .listingEntry _ domain inner | .tableEntry _ domain inner => some (domain, inner)
  | _ => none

namespace Schema

/-- The catalog at a domain of a tree, if it is there. -/
def catalog? (schema : Schema) (root : Node) (domain : Path) : Option (Catalog Node) :=
  match schema.resolve domain with
  | .ok accessor =>
      match accessor.get root with
      | .ok (.catalog entities) => some entities
      | _ => none
  | .error _ => none

/-- The entity of an identifier in the catalog at a domain of a tree. -/
def entity? (schema : Schema) (root : Node) (domain : Path) (id : Identifier) : Option Node := do
  let entities ← schema.catalog? root domain
  entities.get? id

end Schema

/-- Whether what a step leads to is there for a reader: an entry of a side table is while the
domain has its entity. -/
def Step.isLive (schema : Schema) (root : Node) : Step → Bool
  | .tableEntry (some key) domain _ => (schema.entity? root domain key).isSome
  | _ => true

/-- Whether every side table on the way has the entity of its entry. -/
def Accessor.isLive (accessor : Accessor) (schema : Schema) (root : Node) : Bool :=
  accessor.steps.all (Step.isLive schema root)

/-! ### Depth -/

theorem Step.depth_le_depthOf {step : Step} {steps : List Step} (member : step ∈ steps) :
    step.depth ≤ depthOf steps := by
  induction steps with
  | nil => cases member
  | cons first rest ih =>
      rw [depthOf]
      rcases List.mem_cons.mp member with rfl | later
      · exact Nat.le_max_left ..
      · exact Nat.le_trans (ih later) (Nat.le_max_right ..)

/-- A domain that is consulted on the way goes less deep than the way. -/
theorem Step.depthOf_domain_lt {step : Step} {steps inner : List Step} {domain : Path}
    (member : step ∈ steps) (consulted : step.domain? = some (domain, inner)) :
    depthOf inner < depthOf steps := by
  have bound := depth_le_depthOf member
  cases step with
  | field | catalogEntry => cases consulted
  | listingEntry | tableEntry =>
      cases consulted
      rw [depth] at bound
      omega

namespace Schema

variable {schema : Schema} {type target : FieldType} {segments : List Segment} {step : Step}
  {steps : List Step}

/-- No entry of a listing is on the way to a catalog. -/
theorem Leads.bare {entity : String} (leads : schema.Leads type segments steps (.catalog entity)) :
    ∀ step ∈ steps, step.isListing = false := by
  generalize reached : FieldType.catalog entity = target at leads
  induction leads with
  | here => simp
  | field _ _ _ ih => exact List.forall_mem_cons.mpr ⟨rfl, ih reached⟩
  | catalogEntry _ _ ih => exact List.forall_mem_cons.mpr ⟨rfl, ih reached⟩
  | listingEntry => cases reached
  | tableEntry _ _ _ _ ih => exact List.forall_mem_cons.mpr ⟨rfl, ih reached⟩

/-- A domain that is consulted on the way is one of the schema's, and its steps lead to a
catalog. -/
theorem Leads.domain_of_mem (sound : schema.SoundDomains)
    (leads : schema.Leads type segments steps target) (named : type.domains ⊆ schema.domains)
    (member : step ∈ steps) {domain : Path} {inner : List Step}
    (consulted : step.domain? = some (domain, inner)) :
    domain ∈ schema.domains ∧
      ∃ entity, schema.Leads schema.rootType domain.segments inner (.catalog entity) := by
  induction leads with
  | here => cases member
  | field found first onward ih =>
      rcases List.mem_cons.mp member with rfl | later
      · cases consulted
      · exact ih (domains_of_declared found (StructDef.mem_of_field? first).1) later
  | catalogEntry keyed onward ih =>
      rcases List.mem_cons.mp member with rfl | later
      · cases consulted
      · exact ih (List.nil_subset _) later
  | listingEntry keyed owner =>
      obtain rfl := List.mem_singleton.mp member
      cases consulted
      exact ⟨named List.mem_cons_self, _, owner⟩
  | tableEntry keyed owner onward _ ih =>
      rcases List.mem_cons.mp member with rfl | later
      · cases consulted
        have declared := named List.mem_cons_self
        obtain ⟨entity, rfl⟩ := sound.leads_catalog declared owner
        exact ⟨declared, entity, owner⟩
      · exact ih (fun other deeper => named (List.mem_cons_of_mem _ deeper)) later

end Schema

/-! ### Two readings side by side -/

/-- Two readings come out alike: both fail in the same way, or what they find is related. -/
def Alike {α : Type} (related : α → α → Prop) (before after : Except TreeError α) : Prop :=
  (∃ value later, before = .ok value ∧ after = .ok later ∧ related value later) ∨
    ∃ error, before = .error error ∧ after = .error error

namespace Alike

variable {α β : Type} {related : α → α → Prop} {further : β → β → Prop}

theorem ok {value later : α} (held : related value later) :
    Alike related (.ok value) (.ok later) :=
  Or.inl ⟨value, later, rfl, rfl, held⟩

theorem error (fault : TreeError) : Alike related (.error fault) (.error fault) :=
  Or.inr ⟨fault, rfl, rfl⟩

/-- A reading is like itself. -/
theorem refl (reflexive : ∀ value, related value value) (outcome : Except TreeError α) :
    Alike related outcome outcome := by
  cases outcome with
  | ok value => exact .ok (reflexive value)
  | error fault => exact .error fault

theorem bind {before after : Except TreeError α} {next following : α → Except TreeError β}
    (alike : Alike related before after)
    (onward : ∀ value later, related value later → Alike further (next value) (following later)) :
    Alike further (before >>= next) (after >>= following) := by
  rcases alike with ⟨value, later, rfl, rfl, held⟩ | ⟨fault, rfl, rfl⟩
  · exact onward value later held
  · exact .error fault

end Alike

/-- What has become of a node: nothing, or one change was made below it. The change's path is
`taken` up to the node and goes on through more domains than `steps` do. -/
def Near (schema : Schema) (change : Option Node) (whole : List Segment) (type : FieldType)
    (taken : List Segment) (steps : List Step) (node later : Node) : Prop :=
  later = node ∨ ∃ left rest target, whole = taken ++ left ∧
    schema.Leads type left rest target ∧ Step.depthOf steps < Step.depthOf rest ∧
    Changes rest node change later

/-- Two catalogs have the same keys, and the same entity under each key that the path does not lead
through. -/
structure Catalog.Agree (whole taken : List Segment) (entities later : Catalog Node) : Prop where
  keys : ∀ id, (later.get? id).isSome = (entities.get? id).isSome
  same : ∀ id, ¬ taken ++ [Segment.entry id] <+: whole → later.get? id = entities.get? id

namespace Near

variable {schema : Schema} {change : Option Node} {whole taken : List Segment}
  {type next : FieldType} {segment : Segment} {step : Step} {steps : List Step} {node later : Node}

/-- What stays is near itself. -/
protected theorem refl (node : Node) : Near schema change whole type taken steps node node :=
  Or.inl rfl

/-- The children at the next step have stayed the same or are near one another in turn. -/
theorem child? (near : Near schema change whole type taken (step :: steps) node later)
    (first : schema.Leads type [segment] [step] next) (named : segment.isParameter = false)
    (free : ∀ other ∈ whole, other.isParameter = false) :
    later.child? step = node.child? step ∨
      ∃ current following, node.child? step = some current ∧ later.child? step = some following ∧
        Near schema change whole next (taken ++ [segment]) steps current following := by
  rcases near with rfl | ⟨left, rest, target, split, leads, deeper, changes⟩
  · exact Or.inl rfl
  cases left with
  | nil =>
      cases leads
      exact absurd deeper (Nat.not_lt_zero _)
  | cons other left =>
      obtain ⟨theirs, rest, there, rfl, single, onward⟩ := leads.cons_cases
      by_cases same : other = segment
      · subst same
        obtain ⟨alike, rfl⟩ := single.unique first
        cases alike
        have deeper : Step.depthOf steps < Step.depthOf rest := by
          simp only [Step.depthOf] at deeper
          omega
        have more : rest ≠ [] := by
          rintro rfl
          exact absurd deeper (Nat.not_lt_zero _)
        obtain ⟨current, following, here, there, onChild⟩ :=
          changes.child?_below (leads.isListing_eq_false more) more
        refine Or.inr ⟨current, following, here, there, Or.inr ⟨left, rest, target, ?_, onward, ?_⟩⟩
        · simpa using split
        · exact ⟨deeper, onChild⟩
      · refine Or.inl (changes.child?_of_ne ?_)
        have otherNamed : other.isParameter = false := free other (by simp [split])
        rw [first.segment?_eq named, single.segment?_eq otherNamed]
        exact fun apart => same (Option.some.inj apart).symm

/-- What is at the next step is read alike, if anything has to be there. -/
theorem orNonexistent (near : Near schema change whole type taken (step :: steps) node later)
    (first : schema.Leads type [segment] [step] next) (named : segment.isParameter = false)
    (free : ∀ other ∈ whole, other.isParameter = false) (path : Path) :
    Alike (Near schema change whole next (taken ++ [segment]) steps)
      (StateTree.orNonexistent path (node.child? step))
      (StateTree.orNonexistent path (later.child? step)) := by
  rcases near.child? first named free with same | ⟨current, following, here, there, onward⟩
  · rw [same]
    exact .refl Near.refl _
  · rw [here, there]
    exact .ok onward

/-- A change below a struct leaves a struct. -/
theorem struct_cases {name : String}
    (near : Near schema change whole (.struct name) taken steps node later) :
    later = node ∨ ∃ fields kept, node = .struct fields ∧ later = .struct kept := by
  refine near.imp_right ?_
  rintro ⟨left, rest, target, -, leads, deeper, changes⟩
  cases leads with
  | here => exact absurd deeper (Nat.not_lt_zero _)
  | field => cases changes <;> exact ⟨_, _, rfl, rfl⟩

/-- A change below a catalog leaves a catalog. -/
theorem catalog_cases {entity : String}
    (near : Near schema change whole (.catalog entity) taken steps node later) :
    later = node ∨ ∃ entities kept, node = .catalog entities ∧ later = .catalog kept := by
  refine near.imp_right ?_
  rintro ⟨left, rest, target, -, leads, deeper, changes⟩
  cases leads with
  | here => exact absurd deeper (Nat.not_lt_zero _)
  | catalogEntry => cases changes <;> exact ⟨_, _, rfl, rfl⟩

/-- A change below a side table leaves a side table. -/
theorem sideTable_cases {domain : Path} {value : FieldType}
    (near : Near schema change whole (.sideTable domain value) taken steps node later) :
    later = node ∨ ∃ table kept, node = .sideTable table ∧ later = .sideTable kept := by
  refine near.imp_right ?_
  rintro ⟨left, rest, target, -, leads, deeper, changes⟩
  cases leads with
  | here => exact absurd deeper (Nat.not_lt_zero _)
  | tableEntry => cases changes <;> exact ⟨_, _, rfl, rfl⟩

/-- A catalog that a deeper change was made below has kept its keys. -/
theorem agree {entity : String} {entities kept : Catalog Node}
    (near : Near schema change whole (.catalog entity) taken [] (.catalog entities)
      (.catalog kept)) : Catalog.Agree whole taken entities kept := by
  rcases near with same | ⟨left, rest, target, split, leads, deeper, changes⟩
  · cases same
    exact ⟨fun _ => rfl, fun _ _ => rfl⟩
  cases leads with
  | here => exact absurd deeper (Nat.not_lt_zero _)
  | @catalogEntry _ segment key segments rest _ keyed onward =>
      cases changes with
      | entityStored | entityErased => exact absurd deeper (by simp [Step.depthOf, Step.depth])
      | @belowEntity id _ _ current after _ more held below =>
          refine ⟨fun other => ?_, fun other off => ?_⟩
          · by_cases same : other = id
            · rw [same, Catalog.get?_insert_self, held]
              rfl
            · rw [Catalog.get?_insert_of_ne same]
          · refine Catalog.get?_insert_of_ne ?_ ..
            rintro rfl
            exact off ⟨segments, by simp [split, Segment.eq_entry_of_key keyed]⟩

/-- The catalog of a domain keeps its keys, or is missing as before. -/
theorem domainCatalog {entity : String} {before after : Except TreeError Node}
    (alike : Alike (Near schema change whole (.catalog entity) taken []) before after)
    (path : Path) :
    Alike (Catalog.Agree whole taken) (StateTree.domainCatalog path before)
      (StateTree.domainCatalog path after) := by
  have same (outcome : Except TreeError Node) :
      Alike (Catalog.Agree whole taken) (StateTree.domainCatalog path outcome)
        (StateTree.domainCatalog path outcome) :=
    .refl (fun _ => ⟨fun _ => rfl, fun _ _ => rfl⟩) _
  rcases alike with ⟨node, later, rfl, rfl, near⟩ | ⟨fault, rfl, rfl⟩
  · rcases near.catalog_cases with rfl | ⟨entities, kept, rfl, rfl⟩
    · exact same _
    · exact .ok near.agree
  · exact same _

end Near

/-! ### Steps beside a change -/

namespace Near

variable {schema : Schema} {root after : Node} {change : Option Node}
  {whole taken : List Segment} {segment : Segment} {key : Option Identifier} {steps : List Step}
  {node later : Node}

theorem readStep_field {type : String} {next : FieldType} {name : String} {deletable : Bool}
    (near : Near schema change whole (.struct type) taken (.field name deletable :: steps) node
      later)
    (single : schema.Leads (.struct type) [.name name] [.field name deletable] next)
    (free : ∀ other ∈ whole, other.isParameter = false) (path : Path) :
    Alike (Near schema change whole next (taken ++ [.name name]) steps)
      (readStep root path (.field name deletable) node)
      (readStep after path (.field name deletable) later) := by
  rcases near.struct_cases with rfl | ⟨fields, kept, rfl, rfl⟩
  · exact .refl Near.refl _
  · exact near.orNonexistent single rfl free path

theorem readStep_catalogEntry {entity : String}
    (near : Near schema change whole (.catalog entity) taken (.catalogEntry key :: steps) node
      later)
    (keyed : segment.entryKey = .ok key) (named : segment.isParameter = false)
    (free : ∀ other ∈ whole, other.isParameter = false) (path : Path) :
    Alike (Near schema change whole (.struct entity) (taken ++ [segment]) steps)
      (readStep root path (.catalogEntry key) node)
      (readStep after path (.catalogEntry key) later) := by
  obtain ⟨id, rfl⟩ := Segment.entryKey_eq_some named keyed
  rcases near.catalog_cases with rfl | ⟨entities, kept, rfl, rfl⟩
  · exact .refl Near.refl _
  · exact near.orNonexistent (.catalogEntry keyed .here) named free path

/-- An entry of a side table is read alike when the domain has kept its keys. -/
theorem readStep_tableEntry {domain : Path} {value : FieldType} {entity : String}
    {inner : List Step}
    (near : Near schema change whole (.sideTable domain value) taken
      (.tableEntry key domain inner :: steps) node later)
    (keyed : segment.entryKey = .ok key)
    (owner : schema.Leads schema.rootType domain.segments inner (.catalog entity))
    (owned : Alike (Near schema change whole (.catalog entity) domain.segments [])
      (readSteps root domain inner root) (readSteps after domain inner after))
    (bound : domain.isParameterized = false) (named : segment.isParameter = false)
    (free : ∀ other ∈ whole, other.isParameter = false) (path : Path) :
    Alike (Near schema change whole value (taken ++ [segment]) steps)
      (readStep root path (.tableEntry key domain inner) node)
      (readStep after path (.tableEntry key domain inner) later) := by
  obtain ⟨id, rfl⟩ := Segment.entryKey_eq_some named keyed
  -- The table and what it holds are near as in the other cases; the domain says who may see it.
  have held : Alike (Near schema change whole value (taken ++ [segment]) steps)
      (do let table ← locate path node.asSideTable
          StateTree.orNonexistent path (table.get? id))
      (do let table ← locate path later.asSideTable
          StateTree.orNonexistent path (table.get? id)) := by
    rcases near.sideTable_cases with rfl | ⟨table, kept, rfl, rfl⟩
    · exact .refl Near.refl _
    · exact near.orNonexistent (.tableEntry keyed owner .here) named free path
  simp only [readStep, orUnbound, Path.requireBound, bound, ok_bind, Bool.false_eq_true, if_false,
    ← bind_assoc]
  refine held.bind fun current following near => ?_
  refine (Near.domainCatalog owned path).bind fun entities kept agree => ?_
  have same : kept.contains id = entities.contains id := agree.keys id
  rw [same]
  cases entities.contains id with
  | true => exact .ok near
  | false => exact .error _

end Near

namespace Schema

variable {schema : Schema} {root after : Node} {change : Option Node} {whole : List Segment}
  {way : List Step} {goal : FieldType}

/-- A change on a deeper way leaves what steps lead to near what it was, whether or not they are
on its way. By induction on the relation; the steps of a domain start at the root, where the whole
way of the change is still ahead. -/
theorem Leads.framed (sound : schema.SoundDomains)
    (led : schema.Leads schema.rootType whole way goal) (changed : Changes way root change after)
    (free : ∀ other ∈ whole, other.isParameter = false) {type target : FieldType}
    {segments : List Segment} {steps : List Step}
    (leads : schema.Leads type segments steps target)
    (shallow : Step.depthOf steps < Step.depthOf way)
    (bare : ∀ step ∈ steps, step.isListing = false)
    (bound : ∀ segment ∈ segments, segment.isParameter = false)
    (named : type.domains ⊆ schema.domains) (path : Path) {taken : List Segment}
    {node later : Node} (near : Near schema change whole type taken steps node later) :
    Alike (Near schema change whole target (taken ++ segments) [])
      (readSteps root path steps node) (readSteps after path steps later) := by
  induction leads generalizing path taken node later with
  | here =>
      rw [List.append_nil]
      exact .ok near
  | field found first onward ih =>
      have member := (StructDef.mem_of_field? first).1
      rw [List.append_cons]
      refine (near.readStep_field (.field found first .here) free path).bind fun _ _ near => ?_
      simp only [Step.depthOf] at shallow
      exact ih (by omega) (List.forall_mem_cons.mp bare).2 (List.forall_mem_cons.mp bound).2
        (domains_of_declared found member) path near
  | catalogEntry keyed onward ih =>
      obtain ⟨parameterless, bound⟩ := List.forall_mem_cons.mp bound
      rw [List.append_cons]
      refine (near.readStep_catalogEntry keyed parameterless free path).bind fun _ _ near => ?_
      simp only [Step.depthOf] at shallow
      exact ih (by omega) (List.forall_mem_cons.mp bare).2 bound (List.nil_subset _) path near
  | listingEntry =>
      cases bare _ List.mem_cons_self
  | @tableEntry domain _ _ _ _ _ _ _ _ keyed owner onward ihOwner ih =>
      obtain ⟨parameterless, bound⟩ := List.forall_mem_cons.mp bound
      have declared := named List.mem_cons_self
      obtain ⟨entity, rfl⟩ := sound.leads_catalog declared owner
      simp only [Step.depthOf, Step.depth] at shallow
      have bare := (List.forall_mem_cons.mp bare).2
      have unbound := (sound _ declared).1
      have owned := ihOwner (by omega) owner.bare (Path.isParameterized_eq_false_iff.mp unbound)
        (List.nil_subset _) domain
        (Or.inr ⟨whole, way, goal, (List.nil_append _).symm, led, by omega, changed⟩)
      rw [List.append_cons]
      refine (near.readStep_tableEntry keyed owner owned unbound parameterless free path).bind
        fun _ _ near => ?_
      exact ih (by omega) bare bound
        (fun other deeper => named (List.mem_cons_of_mem _ deeper)) path near

/-! ### The domains on a change's own way -/

/-- The catalog at a domain is what its steps read. -/
theorem SoundDomains.catalog?_eq (sound : schema.SoundDomains) {domain : Path} {inner : List Step}
    {entity : String} (declared : domain ∈ schema.domains)
    (owner : schema.Leads schema.rootType domain.segments inner (.catalog entity)) (tree : Node) :
    schema.catalog? tree domain =
      match readSteps tree domain inner tree with
      | .ok (.catalog entities) => some entities
      | _ => none := by
  obtain ⟨bound, accessor, found, resolved, -⟩ := sound domain declared
  obtain ⟨rfl, -⟩ := owner.unique (leads_of_resolve resolved)
  obtain rfl := path_of_resolve resolved
  simp only [catalog?, resolved, Accessor.get, Path.requireBound, bound, Bool.false_eq_true,
    if_false, ok_bind]

/-- A domain that a change's own way consults has the same keys after the change, and the same
entity under each key that the way does not lead through. -/
theorem Leads.domain_framed (sound : schema.SoundDomains) (valid : schema.Valid root)
    (led : schema.Leads schema.rootType whole way goal) (changed : Changes way root change after)
    (free : ∀ other ∈ whole, other.isParameter = false) {step : Step} (member : step ∈ way)
    {domain : Path} {inner : List Step} (consulted : step.domain? = some (domain, inner)) :
    domain.isParameterized = false ∧
      (∀ path, domainCatalog path (readSteps after domain inner after) =
        orNonexistent path (schema.catalog? after domain)) ∧
      (∀ id, (schema.entity? after domain id).isSome = (schema.entity? root domain id).isSome) ∧
      ∀ id, ¬ domain.segments ++ [.entry id] <+: whole →
        schema.entity? after domain id = schema.entity? root domain id := by
  obtain ⟨declared, entity, owner⟩ :=
    led.domain_of_mem sound (List.nil_subset _) member consulted
  have bound := (sound domain declared).1
  have bare := Path.isParameterized_eq_false_iff.mp bound
  have deeper := Step.depthOf_domain_lt member consulted
  have reaches := owner.reaches sound valid domain bare (List.nil_subset _) valid
  have alike := led.framed sound changed free owner deeper owner.bare bare (List.nil_subset _)
    domain (Or.inr ⟨whole, way, goal, (List.nil_append _).symm, led, deeper, changed⟩)
  simp only [entity?, sound.catalog?_eq declared owner]
  refine ⟨bound, ?_⟩
  rcases reaches with ⟨node, read, fits⟩ | read
  · obtain ⟨entities, rfl⟩ := fits.catalog_inv
    rw [read] at alike
    rcases alike with ⟨_, later, same, readAfter, near⟩ | ⟨fault, same, -⟩
    · cases same
      obtain ⟨kept, rfl⟩ : ∃ kept, later = .catalog kept := by
        rcases near.catalog_cases with rfl | ⟨_, kept, -, rfl⟩ <;> exact ⟨_, rfl⟩
      have agree := near.agree
      rw [read, readAfter]
      exact ⟨fun path => rfl, agree.keys, agree.same⟩
    · cases same
  · rw [read] at alike
    rcases alike with ⟨_, later, same, -⟩ | ⟨fault, same, readAfter⟩
    · cases same
    · cases same
      rw [read, readAfter]
      exact ⟨fun path => rfl, fun id => rfl, fun id _ => rfl⟩

/-! ### The way itself, read after the change -/

/-- What stands at a step of the change's own way is read after the change exactly while it was
live before. -/
theorem Leads.readStep_after (sound : schema.SoundDomains) (valid : schema.Valid root)
    (led : schema.Leads schema.rootType whole way goal) (changed : Changes way root change after)
    (free : ∀ other ∈ whole, other.isParameter = false) {step : Step} (member : step ∈ way)
    (path : Path) {node child : Node} (held : node.child? step = some child) :
    readStep after path step node =
      if step.isLive schema root then .ok child else .error (.nonexistent path) := by
  cases step with
  | field name deletable =>
      cases node with
      | struct fields =>
          change fields.get? name = some child at held
          simp [readStep, Node.asStruct, locate, held, StateTree.orNonexistent, Step.isLive]
      | _ => cases held
  | catalogEntry key =>
      cases node with
      | catalog entities =>
          cases key with
          | none => cases held
          | some id =>
              change entities.get? id = some child at held
              simp [readStep, orUnbound, Node.asCatalog, locate, held, StateTree.orNonexistent,
                Step.isLive]
      | _ => cases held
  | listingEntry => cases node <;> cases held
  | tableEntry key domain inner =>
      obtain ⟨bound, read, keys, -⟩ := led.domain_framed sound valid changed free member rfl
      cases node with
      | sideTable table =>
          cases key with
          | none => cases held
          | some id =>
              change table.get? id = some child at held
              rw [Step.isLive, ← keys id, entity?]
              simp only [readStep, orUnbound, Node.asSideTable, locate, held, Path.requireBound,
                bound, read, ok_bind]
              cases schema.catalog? after domain <;> rfl
      | _ => cases held

/-- What stands at the end of steps of the change's own way is read after the change exactly while
all of them were live before. -/
theorem Leads.readSteps_after (sound : schema.SoundDomains) (valid : schema.Valid root)
    (led : schema.Leads schema.rootType whole way goal) (changed : Changes way root change after)
    (free : ∀ other ∈ whole, other.isParameter = false) {steps : List Step} (part : steps ⊆ way)
    (path : Path) {node last : Node} (held : node.descendant? steps = some last) :
    readSteps after path steps node =
      if steps.all (Step.isLive schema root) then .ok last else .error (.nonexistent path) := by
  induction steps generalizing node with
  | nil =>
      cases held
      rfl
  | cons step rest ih =>
      obtain ⟨child, first, onward⟩ := Option.bind_eq_some_iff.mp held
      obtain ⟨member, part⟩ := List.cons_subset.mp part
      rw [readSteps, led.readStep_after sound valid changed free member path first, List.all_cons]
      cases step.isLive schema root with
      | true => exact ih part onward
      | false => rfl

/-- The only entry of a listing on a way is its last step. -/
theorem Leads.bare_or_listing {type target : FieldType} {segments : List Segment}
    {steps : List Step} (leads : schema.Leads type segments steps target) :
    (∀ step ∈ steps, step.isListing = false) ∨
      ∃ front key domain inner, steps = front ++ [.listingEntry key domain inner] ∧
        ∀ step ∈ front, step.isListing = false := by
  have further {step : Step} {rest : List Step} (first : step.isListing = false)
      (onward : (∀ step ∈ rest, step.isListing = false) ∨
        ∃ front key domain inner, rest = front ++ [.listingEntry key domain inner] ∧
          ∀ step ∈ front, step.isListing = false) :
      (∀ other ∈ step :: rest, other.isListing = false) ∨
        ∃ front key domain inner, step :: rest = front ++ [.listingEntry key domain inner] ∧
          ∀ other ∈ front, other.isListing = false := by
    rcases onward with bare | ⟨front, key, domain, inner, rfl, bare⟩
    · exact Or.inl (List.forall_mem_cons.mpr ⟨first, bare⟩)
    · exact Or.inr ⟨step :: front, key, domain, inner, rfl, List.forall_mem_cons.mpr ⟨first, bare⟩⟩
  induction leads with
  | here => exact Or.inl (by simp)
  | field _ _ _ ih => exact further rfl ih
  | catalogEntry _ _ ih => exact further rfl ih
  | listingEntry => exact Or.inr ⟨[], _, _, _, rfl, by simp⟩
  | tableEntry _ _ _ _ ih => exact further rfl ih

end Schema

namespace Listing

/-- Listing an identifier leaves it in its place, or puts it at the end. -/
theorem insert_eq (listing : Listing) (id : Identifier) :
    listing.insert id =
      ⟨listing.domain, if id ∈ listing.ids then listing.ids else listing.ids ++ [id]⟩ := by
  unfold insert
  split <;> rfl

/-- What was listed is listed. -/
theorem contains_insert (listing : Listing) (id : Identifier) :
    (listing.insert id).contains id = true := by
  rw [insert_eq]
  by_cases listed : id ∈ listing.ids <;> simp [contains, listed]

end Listing

/-- An entry of a listing is the entity that the domain has. -/
theorem readSteps_listed {schema : Schema} {root : Node} {path domain : Path} {id : Identifier}
    {inner : List Step} {listing : Listing} (listed : listing.contains id = true)
    (unbound : domain.isParameterized = false)
    (owned : domainCatalog path (readSteps root domain inner root) =
      orNonexistent path (schema.catalog? root domain)) :
    readSteps root path [.listingEntry (some id) domain inner] (.listing listing) =
      orNonexistent path (schema.entity? root domain id) := by
  simp only [readSteps, readStep, orUnbound, Node.asListing, locate, listed, Path.requireBound,
    unbound, Bool.false_eq_true, if_false, if_true, ok_bind, owned, Schema.entity?]
  cases schema.catalog? root domain with
  | none => rfl
  | some entities => exact bind_pure _

/-- Reading where a value was stored. A path without an entry of a listing gives the value back, if
every side table on the way has the entity of its entry, and nothing otherwise. A path that ends in
an entry of a listing lists its identifier, at the end if it was not listed, and gives the entity
that the domain has now, under the same condition: it is there if it was before, and is the same
one unless the listing is inside it. -/
theorem Accessor.get_set {schema : Schema} {root value after : Node} {path : Path}
    {accessor : Accessor} (sound : schema.SoundDomains) (valid : schema.Valid root)
    (free : path.isParameterized = false) (resolved : schema.resolve path = .ok accessor)
    (stored : accessor.set schema root value = .ok after) :
    ((∀ step ∈ accessor.steps, step.isListing = false) ∧
      accessor.get after =
        if accessor.isLive schema root then .ok value else .error (.nonexistent path)) ∨
    ∃ front id domain inner listing,
      accessor.steps = front ++ [.listingEntry (some id) domain inner] ∧
      root.descendant? front = some (.listing listing) ∧
      after.descendant? front = some (.listing
        ⟨listing.domain, if id ∈ listing.ids then listing.ids else listing.ids ++ [id]⟩) ∧
      (accessor.get after =
        if accessor.isLive schema root then orNonexistent path (schema.entity? after domain id)
        else .error (.nonexistent path)) ∧
      (schema.entity? after domain id).isSome = (schema.entity? root domain id).isSome ∧
      ((domain.entry id).isPrefixOf path = false →
        schema.entity? after domain id = schema.entity? root domain id) := by
  have leads := Schema.leads_of_resolve resolved
  obtain rfl := Schema.path_of_resolve resolved
  rw [Accessor.set, bind_eq_ok_iff] at stored
  obtain ⟨⟨⟩, -, written⟩ := stored
  have changes := changes_of_writeSteps written
  have bound := Path.isParameterized_eq_false_iff.mp free
  have read : accessor.get after = readSteps after accessor.path accessor.steps after := by
    simp [Accessor.get, Path.requireBound, free]
  rw [read]
  rcases leads.bare_or_listing with bare | ⟨front, key, domain, inner, split, bare⟩
  · refine Or.inl ⟨bare, ?_⟩
    exact leads.readSteps_after sound valid changes bound (List.Subset.refl _) accessor.path
      (changes.descendant?_stored bare)
  · have onward := changes
    rw [split] at onward
    obtain ⟨current, next, before, behind, last⟩ := onward.descendant?_below bare (by simp)
    cases last with
    | @listed id _ _ _ listing =>
        have member : Step.listingEntry (some id) domain inner ∈ accessor.steps := by
          simp [split]
        obtain ⟨unbound, owned, keys, same⟩ :=
          leads.domain_framed sound valid changes bound member rfl
        have part : front ⊆ accessor.steps := by simp [split]
        have live : accessor.isLive schema root = front.all (Step.isLive schema root) := by
          simp [Accessor.isLive, split, Step.isLive]
        rw [split, readSteps_append,
          leads.readSteps_after sound valid changes bound part accessor.path behind, live]
        refine Or.inr ⟨front, id, domain, inner, listing, rfl, before, ?_, ?_, keys id, ?_⟩
        · rw [behind, Listing.insert_eq]
        · cases front.all (Step.isLive schema root) with
          | false => rfl
          | true =>
              simp only [if_true, ok_bind]
              exact readSteps_listed (listing.contains_insert id) unbound (owned accessor.path)
        · intro off
          refine same id fun inside => ?_
          have inside : (domain.entry id).isPrefixOf accessor.path = true :=
            List.isPrefixOf_iff_prefix.mpr inside
          rw [inside] at off
          cases off

/-! ### In a circle of friends

Each person lists friends among all persons, and a note on a person lists persons too.
-/

namespace Sample

/-- The catalog of all persons. -/
def persons : Path := .ofNames ["persons"]

def circle : Schema :=
  ⟨"Circle",
    [("Circle", ⟨"Circle", [⟨"notes", .sideTable persons (.struct "Note"), .required⟩,
      ⟨"persons", .catalog "Person", .required⟩]⟩),
    ("Note", ⟨"Note", [⟨"others", .listing persons, .required⟩]⟩),
    ("Person", ⟨"Person", [⟨"friends", .listing persons, .required⟩,
      ⟨"id", .identifier, .required⟩]⟩)]⟩

theorem circle_soundDomains : circle.SoundDomains := by
  intro domain named
  have only : domain = persons := by
    have all : domain ∈ [persons, persons, persons] := named
    simpa using all
  subst only
  exact ⟨rfl, ⟨persons, [.field "persons" false], .catalog "Person"⟩, "Person", rfl, rfl⟩

/-- A person without friends. -/
def loner : Node := .struct ⟨[("friends", .listing ⟨persons, []⟩), ("id", .id a)]⟩

/-- One person, and a note on another who is gone. -/
def company : Node :=
  .struct ⟨[("notes", .sideTable ⟨persons, [(b, .struct ⟨[("others", .listing ⟨persons, []⟩)]⟩)]⟩),
    ("persons", .catalog ⟨[(a, loner)]⟩)]⟩

theorem company_valid : circle.Valid company := by
  decide +kernel

/-- The person `a` as a friend of its own. -/
def ownFriend : Accessor :=
  ⟨.ofNames ["persons", "a", "friends", "a"],
    [.field "persons" false, .catalogEntry (some a), .field "friends" false,
      .listingEntry (some a) persons [.field "persons" false]],
    .struct "Person"⟩

/-- The person `a` in the note on the one who is gone. -/
def noted : Accessor :=
  ⟨.ofNames ["notes", "b", "others", "a"],
    [.field "notes" false, .tableEntry (some b) persons [.field "persons" false],
      .field "others" false, .listingEntry (some a) persons [.field "persons" false]],
    .struct "Person"⟩

/-- The company once `a` is listed among its own friends. -/
def selfish : Node :=
  .struct ⟨[("notes", .sideTable ⟨persons, [(b, .struct ⟨[("others", .listing ⟨persons, []⟩)]⟩)]⟩),
    ("persons", .catalog ⟨[(a, .struct ⟨[("friends", .listing ⟨persons, [a]⟩), ("id", .id a)]⟩)]⟩)]⟩

/-- What was listed is not always read as the entity that the tree had before: a person listed as a
friend of its own is read with the friend, and one listed below the note on a person who is gone is
not read at all, although the catalog has it. -/
theorem listed_read_otherwise :
    SchemaBuilder.build ⟨"Circle", circle.types⟩ = .ok circle ∧ circle.SoundDomains ∧
      circle.Valid company ∧ circle.entity? company persons a = some loner ∧
      (circle.resolve ownFriend.path = .ok ownFriend ∧
        ∃ after, ownFriend.set circle company loner = .ok after ∧
          ownFriend.get after ≠ .ok loner) ∧
      circle.resolve noted.path = .ok noted ∧
        ∃ after, noted.set circle company loner = .ok after ∧
          noted.get after = .error (.nonexistent noted.path) := by
  refine ⟨rfl, circle_soundDomains, company_valid, rfl, ⟨rfl, selfish, rfl, ?_⟩, rfl, _, rfl, rfl⟩
  have read : ownFriend.get selfish = .ok (.struct ⟨[("friends", .listing ⟨persons, [a]⟩),
    ("id", .id a)]⟩) := rfl
  rw [read]
  simp [loner]

/-- A person listed as a friend of its own is read as the tree has it now. -/
theorem ownFriend_get_set :
    circle.SoundDomains ∧ circle.Valid company ∧ ownFriend.path.isParameterized = false ∧
      circle.resolve ownFriend.path = .ok ownFriend ∧
      ownFriend.set circle company loner = .ok selfish ∧
      (((∀ step ∈ ownFriend.steps, step.isListing = false) ∧
        ownFriend.get selfish =
          if ownFriend.isLive circle company then .ok loner
          else .error (.nonexistent ownFriend.path)) ∨
      ∃ front id domain inner listing,
        ownFriend.steps = front ++ [.listingEntry (some id) domain inner] ∧
        company.descendant? front = some (.listing listing) ∧
        selfish.descendant? front = some (.listing
          ⟨listing.domain, if id ∈ listing.ids then listing.ids else listing.ids ++ [id]⟩) ∧
        (ownFriend.get selfish =
          if ownFriend.isLive circle company then
            orNonexistent ownFriend.path (circle.entity? selfish domain id)
          else .error (.nonexistent ownFriend.path)) ∧
        (circle.entity? selfish domain id).isSome = (circle.entity? company domain id).isSome ∧
        ((domain.entry id).isPrefixOf ownFriend.path = false →
          circle.entity? selfish domain id = circle.entity? company domain id)) :=
  ⟨circle_soundDomains, company_valid, rfl, rfl, rfl,
    Accessor.get_set circle_soundDomains company_valid rfl rfl rfl⟩

end Sample

end StateTree
