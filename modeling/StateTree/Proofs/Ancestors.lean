/-
Module: StateTree.Proofs.Ancestors
Purpose: What has to be there above a location. Every path above one that resolves is resolved, to
  the first of its steps. Storing a value looks for what is stored above its target, and reading
  looks in addition for the entities of the side tables on the way; the two agree on a parent unless
  it is stored below an entry that dangles.
-/
import StateTree.Proofs.Writing
import StateTree.Proofs.Validity
import StateTree.Site.Reference
import StateTree.Update

namespace StateTree

/-! ### Paths above a path -/

namespace Schema

variable {schema : Schema} {type target : FieldType} {segments : List Segment} {steps : List Step}

/-- A step is the same for any path that it is taken for, also for one that ends with it: an entry
of a listing alone has to be last. -/
theorem stepInto_of_last {domainAt : Path → Except TreeError Accessor} {path other : Path}
    {index place : Nat} {segment : Segment} {isLast ends : Bool} {outcome : Step × FieldType}
    (stepped : schema.stepInto domainAt path index type segment isLast = .ok outcome)
    (sooner : isLast = true → ends = true) :
    schema.stepInto domainAt other place type segment ends = .ok outcome := by
  cases type with
  | struct name =>
      cases segment with
      | parameter label => cases stepped
      | name field =>
          obtain ⟨struct, found, stepped⟩ := bind_eq_ok_iff.mp stepped
          refine bind_eq_ok_iff.mpr ⟨struct, found, ?_⟩
          cases named : struct.field? field with
          | none => simp [named] at stepped
          | some declared => simpa [named] using stepped
  | catalog entity => exact stepped
  | listing domain =>
      cases isLast with
      | false => cases stepped
      | true =>
          obtain rfl := sooner rfl
          obtain ⟨resolved, found, stepped⟩ := bind_eq_ok_iff.mp stepped
          refine bind_eq_ok_iff.mpr ⟨resolved, found, ?_⟩
          cases shape : resolved.target with
          | catalog entity => simpa [shape] using stepped
          | _ => simp [shape] at stepped
  | sideTable domain value => exact stepped
  | _ => cases stepped

/-- Resolving segments, halted after a number of them: the steps so far, and the type that the next
segment would be resolved from. -/
def stepsUpTo (schema : Schema) (domainAt : Path → Except TreeError Accessor) (path : Path) :
    Nat → Nat → FieldType → List Segment → Except TreeError (List Step × FieldType)
  | 0, _, type, _ => .ok ([], type)
  | _ + 1, _, type, [] => .ok ([], type)
  | count + 1, index, type, segment :: rest => do
      let (step, next) ← schema.stepInto domainAt path index type segment rest.isEmpty
      let (steps, reached) ← stepsUpTo schema domainAt path count (index + 1) next rest
      pure (step :: steps, reached)

/-- Resolving a path, halted after a number of its segments. -/
def resolveUpTo (schema : Schema) (path : Path) (count : Nat) :
    Except TreeError (List Step × FieldType) :=
  schema.stepsUpTo (schema.resolveWithin schema.domains.length) path count 0 schema.rootType
    path.segments

/-- Resolving a path, taken up after a number of its segments at the type that was reached. -/
def resolveFrom (schema : Schema) (path : Path) (count : Nat) (reached : FieldType) :
    Except TreeError (List Step × FieldType) :=
  schema.stepsAlong (schema.resolveWithin schema.domains.length) path count reached
    (path.segments.drop count)

/-- After a number of segments their resolution has come to what these first ones are resolved to
on their own, the first of the steps, and the others take the rest of the steps from there. -/
theorem stepsAlong_take {domainAt : Path → Except TreeError Accessor} {path : Path} {index : Nat}
    (along : schema.stepsAlong domainAt path index type segments = .ok (steps, target))
    (other : Path) (place count : Nat) :
    ∃ reached,
      schema.stepsAlong domainAt other place type (segments.take count) =
        .ok (steps.take count, reached) ∧
      schema.stepsUpTo domainAt path count index type segments =
        .ok (steps.take count, reached) ∧
      schema.stepsAlong domainAt path (index + count) reached (segments.drop count) =
        .ok (steps.drop count, target) := by
  induction segments generalizing index type steps place count with
  | nil =>
      cases along
      refine ⟨target, by simp [stepsAlong], ?_, by simp [stepsAlong]⟩
      cases count <;> rfl
  | cons segment rest ih =>
      cases count with
      | zero => exact ⟨type, by simp [stepsAlong], rfl, along⟩
      | succ count =>
          obtain ⟨⟨step, next⟩, stepped, along⟩ := bind_eq_ok_iff.mp along
          obtain ⟨⟨more, _⟩, onward, same⟩ := bind_eq_ok_iff.mp along
          cases same
          have ends : rest.isEmpty = true → (rest.take count).isEmpty = true := by
            intro none
            simp [List.isEmpty_iff.mp none]
          obtain ⟨reached, first, halted, further⟩ := ih onward (place + 1) count
          refine ⟨reached, bind_eq_ok_iff.mpr ⟨_, stepInto_of_last stepped ends, ?_⟩,
            bind_eq_ok_iff.mpr ⟨_, stepped, ?_⟩, ?_⟩
          · exact bind_eq_ok_iff.mpr ⟨_, first, rfl⟩
          · exact bind_eq_ok_iff.mpr ⟨_, halted, rfl⟩
          · rwa [Nat.add_right_comm] at further

/-- A path above one that resolves is resolved to the first of its steps, and to the type from which
the longer path takes the rest of them. -/
theorem resolve_take {path : Path} {accessor : Accessor}
    (resolved : schema.resolve path = .ok accessor) (count : Nat) :
    ∃ reached,
      schema.resolve (path.take count) =
        .ok ⟨path.take count, accessor.steps.take count, reached⟩ ∧
      schema.resolveUpTo path count = .ok (accessor.steps.take count, reached) ∧
      schema.resolveFrom path count reached = .ok (accessor.steps.drop count, accessor.target) := by
  obtain ⟨⟨steps, target⟩, along, same⟩ := bind_eq_ok_iff.mp resolved
  cases same
  obtain ⟨reached, first, halted, further⟩ := stepsAlong_take along (path.take count) 0 count
  rw [Nat.zero_add] at further
  exact ⟨reached, bind_eq_ok_iff.mpr ⟨_, first, rfl⟩, halted, further⟩

/-- There is one step for each segment. -/
theorem Leads.length_eq (leads : schema.Leads type segments steps target) :
    steps.length = segments.length := by
  induction leads with
  | here => rfl
  | field _ _ _ ih => exact congrArg Nat.succ ih
  | catalogEntry _ _ ih => exact congrArg Nat.succ ih
  | listingEntry => rfl
  | tableEntry _ _ _ _ ih => exact congrArg Nat.succ ih

/-- The parent of a path that resolves is resolved to all of its steps but the last. -/
theorem resolve_parent {path parent : Path} {accessor : Accessor}
    (resolved : schema.resolve path = .ok accessor) (above : path.parent? = some parent) :
    ∃ reached, schema.resolve parent = .ok ⟨parent, accessor.steps.dropLast, reached⟩ := by
  obtain rfl : path.take (path.length - 1) = parent := by
    unfold Path.parent? at above
    split at above
    · cases above
    · cases above
      exact congrArg Path.mk (List.dropLast_eq_take).symm
  have lengths : accessor.steps.length = path.length := (leads_of_resolve resolved).length_eq
  obtain ⟨reached, found, -⟩ := resolve_take resolved (path.length - 1)
  rw [List.dropLast_eq_take, lengths]
  exact ⟨reached, found⟩

end Schema

/-! ### What is stored -/

namespace Node

/-- Whether a node is a listing that has the identifier that a step leads to. -/
def lists : Node → Step → Bool
  | .listing ids, .listingEntry (some key) _ _ => ids.contains key
  | _, _ => false

/-- Whether something is stored at the end of steps from a node, whether or not the domains on the
way have the entities. Of an entry of a listing that is its identifier. -/
def stores : Node → List Step → Bool
  | _, [] => true
  | node, step :: rest => node.lists step || (node.child? step).any fun child => child.stores rest

/-- Below a step that leads to no entry of a listing, what is stored is stored in the child. -/
theorem stores_cons_of_bare {node : Node} {step : Step} {rest : List Step}
    (bare : step.isListing = false) :
    node.stores (step :: rest) = (node.child? step).any fun child => child.stores rest := by
  have unlisted : node.lists step = false := by
    cases step with
    | listingEntry => cases bare
    | _ => cases node <;> rfl
  rw [stores, unlisted, Bool.false_or]

/-- Where no listing is on the way, what is stored stands at the end of the steps. -/
theorem stores_eq_isSome {node : Node} {steps : List Step}
    (bare : ∀ step ∈ steps, step.isListing = false) :
    node.stores steps = (node.descendant? steps).isSome := by
  induction steps generalizing node with
  | nil => rfl
  | cons step rest ih =>
      obtain ⟨first, bare⟩ := List.forall_mem_cons.mp bare
      rw [stores_cons_of_bare first, descendant?]
      cases node.child? step with
      | none => rfl
      | some child => exact ih bare

/-- What is stored has something stored above it. -/
theorem stores_of_append {node : Node} {front rest : List Step}
    (stored : node.stores (front ++ rest) = true) : node.stores front = true := by
  induction front generalizing node with
  | nil => rfl
  | cons step front ih =>
      rw [List.cons_append, stores, Bool.or_eq_true, Option.any_eq_true] at stored
      rw [stores, Bool.or_eq_true, Option.any_eq_true]
      exact stored.imp_right fun ⟨child, held, below⟩ => ⟨child, held, ih below⟩

/-- What is read at a step is what the node holds there, or the entity of an identifier that it
lists. -/
theorem held_of_readStep {root node found : Node} {path : Path} {step : Step}
    (read : readStep root path step node = .ok found) :
    node.lists step = true ∨ node.child? step = some found := by
  cases step with
  | field name deletable =>
      simp only [readStep, bind_eq_ok_iff, asStruct_located, orNonexistent_eq_ok_iff] at read
      obtain ⟨fields, rfl, held⟩ := read
      exact Or.inr held
  | catalogEntry key =>
      simp only [readStep, bind_eq_ok_iff, orUnbound_eq_ok_iff, asCatalog_located,
        orNonexistent_eq_ok_iff] at read
      obtain ⟨id, rfl, entities, rfl, held⟩ := read
      exact Or.inr held
  | listingEntry key domain inner =>
      simp only [readStep, bind_eq_ok_iff, orUnbound_eq_ok_iff, asListing_located] at read
      obtain ⟨id, rfl, listing, rfl, read⟩ := read
      cases listed : listing.contains id with
      | true => exact Or.inl listed
      | false => simp [listed] at read
  | tableEntry key domain inner =>
      simp only [readStep, bind_eq_ok_iff, orUnbound_eq_ok_iff, asSideTable_located,
        orNonexistent_eq_ok_iff] at read
      obtain ⟨id, rfl, table, rfl, value, held, -, -, entities, -, owned⟩ := read
      split at owned
      · cases owned
        exact Or.inr held
      · cases owned

/-- What is read is stored. -/
theorem stores_of_readSteps {root node found : Node} {path : Path} {steps : List Step}
    (read : readSteps root path steps node = .ok found) : node.stores steps = true := by
  induction steps generalizing node with
  | nil => rfl
  | cons step rest ih =>
      obtain ⟨next, first, onward⟩ := bind_eq_ok_iff.mp read
      rw [stores, Bool.or_eq_true, Option.any_eq_true]
      exact (held_of_readStep first).imp_right fun held => ⟨next, held, ih onward⟩

end Node

/-- Whether something is stored at a path of a tree, dangling entries of listings and side tables
included. -/
def Schema.Stores (schema : Schema) (root : Node) (path : Path) : Prop :=
  ∃ accessor, schema.resolve path = .ok accessor ∧ root.stores accessor.steps = true

/-- What is stored at a path that resolves is stored at the end of its steps. -/
theorem Schema.stores_iff {schema : Schema} {root : Node} {path : Path} {accessor : Accessor}
    (resolved : schema.resolve path = .ok accessor) :
    schema.Stores root path ↔ root.stores accessor.steps = true := by
  simp [Stores, resolved]

/-- Something is stored at every path above one that resolves exactly when it is at the end of all
steps but the last. -/
theorem Schema.stores_ancestors_iff {schema : Schema} {root : Node} {path : Path}
    {accessor : Accessor} (resolved : schema.resolve path = .ok accessor) :
    (∀ ancestor ∈ Reference.ancestors path, schema.Stores root ancestor) ↔
      root.stores accessor.steps.dropLast = true := by
  have lengths : accessor.steps.length = path.length := (leads_of_resolve resolved).length_eq
  have above (ancestor : Path) :
      ancestor ∈ Reference.ancestors path ↔
        ∃ count < path.length, path.take count = ancestor := by
    simp [Reference.ancestors]
  constructor
  · intro stored
    rcases Nat.eq_zero_or_pos path.length with none | some
    · rw [List.eq_nil_of_length_eq_zero (lengths.trans none)]
      rfl
    · obtain ⟨other, found, there⟩ :=
        stored _ ((above _).mpr ⟨path.length - 1, Nat.sub_lt some Nat.one_pos, rfl⟩)
      obtain ⟨reached, same, -⟩ := resolve_take resolved (path.length - 1)
      cases found.symm.trans same
      rwa [List.dropLast_eq_take, lengths]
  · rintro stored ancestor member
    obtain ⟨count, short, rfl⟩ := (above ancestor).mp member
    obtain ⟨reached, found, -⟩ := resolve_take resolved count
    refine ⟨_, found, ?_⟩
    -- The steps of an ancestor are the first of those of the nearest one.
    have first : accessor.steps.take count <+: accessor.steps.dropLast := by
      rw [List.dropLast_eq_take, lengths]
      exact List.take_prefix_take_left (Nat.le_sub_one_of_lt short)
    obtain ⟨rest, split⟩ := first
    rw [← split] at stored
    exact Node.stores_of_append stored

/-! ### One container -/

namespace Node

/-- Whether a step leads into a node of this shape. -/
def opens : Node → Step → Bool
  | .struct _, .field _ _ => true
  | .catalog _, .catalogEntry (some _) => true
  | .listing _, .listingEntry (some _) _ _ => true
  | .sideTable _, .tableEntry (some _) _ _ => true
  | _, _ => false

/-- A node with a child stored where a step leads. -/
def withChild : Node → Step → Node → Node
  | .struct fields, .field name _, child => .struct (fields.insert name child)
  | .catalog entities, .catalogEntry (some key), child => .catalog (entities.insert key child)
  | .sideTable table, .tableEntry (some key) _ _, child => .sideTable (table.insert key child)
  | node, _, _ => node

end Node

section Container

variable {step : Step} {rest : List Step} {node : Node}

/-- Storing a value further below a node stores it in the child, which has to be there. -/
theorem writeSteps_below (opens : node.opens step = true) (bare : step.isListing = false)
    (more : rest ≠ []) (path : Path) (value : Node) :
    writeSteps path (step :: rest) node value = (do
      let current ← orNonexistent path (node.child? step)
      let child ← writeSteps path rest current value
      pure (node.withChild step child)) := by
  obtain ⟨next, rest, rfl⟩ := List.exists_cons_of_ne_nil more
  unfold Node.opens at opens
  split at opens
  · simp [writeSteps, Node.asStruct, locate, Node.child?, Node.withChild]
  · simp [writeSteps, orUnbound, Node.asCatalog, locate, Node.child?, Node.withChild]
  · cases bare
  · simp [writeSteps, orUnbound, Node.asSideTable, locate, Node.child?, Node.withChild]
  · cases opens

/-- A value can be stored where a step leads. -/
theorem writeSteps_last (opens : node.opens step = true) (path : Path) (value : Node) :
    ∃ after, writeSteps path [step] node value = .ok after := by
  unfold Node.opens at opens
  split at opens
  · exact ⟨_, rfl⟩
  · exact ⟨_, rfl⟩
  · exact ⟨_, rfl⟩
  · exact ⟨_, rfl⟩
  · cases opens

/-- Deleting further below a node deletes from the child, if that is there. -/
theorem deleteSteps_below (opens : node.opens step = true) (bare : step.isListing = false)
    (more : rest ≠ []) (path : Path) :
    deleteSteps path (step :: rest) node =
      match node.child? step with
      | none => .ok none
      | some current => (deleteSteps path rest current).map (Option.map (node.withChild step)) := by
  obtain ⟨next, rest, rfl⟩ := List.exists_cons_of_ne_nil more
  unfold Node.opens at opens
  split at opens
  · rfl
  · rfl
  · cases bare
  · rfl
  · cases opens

/-- Deleting where a step leads has an effect if something is stored there. -/
theorem deleteSteps_last (opens : node.opens step = true) (path : Path) :
    (node.stores [step] = true ∧ ∃ after, deleteSteps path [step] node = .ok (some after)) ∨
      (node.stores [step] = false ∧ deleteSteps path [step] node = .ok none) := by
  unfold Node.opens at opens
  split at opens
  · rename_i fields name deletable
    cases held : fields.get? name <;>
      simp [Node.stores, Node.lists, Node.child?, deleteSteps, Node.asStruct, locate, held]
  · rename_i entities key
    cases held : entities.get? key <;>
      simp [Node.stores, Node.lists, Node.child?, deleteSteps, orUnbound, Node.asCatalog, locate,
        held]
  · rename_i ids key domain inner
    cases listed : ids.contains key <;>
      simp [Node.stores, Node.lists, Node.child?, deleteSteps, orUnbound, Node.asListing, locate,
        listed]
  · rename_i table key domain inner
    cases held : table.get? key <;>
      simp [Node.stores, Node.lists, Node.child?, deleteSteps, orUnbound, Node.asSideTable,
        locate, held]
  · cases opens

end Container

namespace Schema

variable {schema : Schema} {type next target : FieldType} {segment : Segment}
  {segments : List Segment} {step : Step} {steps : List Step} {node child : Node}

/-- A step leads into what is legal where it is taken. -/
theorem Leads.opens (first : schema.Leads type [segment] [step] next)
    (named : segment.isParameter = false) (fits : schema.Fits type node) :
    node.opens step = true := by
  cases first with
  | field =>
      obtain ⟨fields, rfl⟩ := fits.struct_inv
      rfl
  | catalogEntry keyed =>
      obtain ⟨id, rfl⟩ := Segment.entryKey_eq_some named keyed
      obtain ⟨entities, rfl⟩ := fits.catalog_inv
      rfl
  | listingEntry keyed =>
      obtain ⟨id, rfl⟩ := Segment.entryKey_eq_some named keyed
      obtain ⟨listing, rfl⟩ := fits.listing_inv
      rfl
  | tableEntry keyed =>
      obtain ⟨id, rfl⟩ := Segment.entryKey_eq_some named keyed
      obtain ⟨table, rfl⟩ := fits.sideTable_inv
      rfl

/-- The child that a step leads to is legal there. -/
theorem Leads.child_fits (first : schema.Leads type [segment] [step] next)
    (fits : schema.Fits type node) (held : node.child? step = some child) :
    schema.Fits next child := by
  cases first with
  | field found declared onward =>
      obtain ⟨-, rfl⟩ := onward.unique .here
      obtain ⟨fields, rfl⟩ := fits.struct_inv
      obtain ⟨member, rfl⟩ := StructDef.mem_of_field? declared
      exact fits.field found member held
  | @catalogEntry _ _ key _ _ _ keyed onward =>
      obtain ⟨-, rfl⟩ := onward.unique .here
      obtain ⟨entities, rfl⟩ := fits.catalog_inv
      cases key with
      | none => cases held
      | some id => exact fits.entity held
  | listingEntry => cases node <;> cases held
  | @tableEntry _ _ _ _ key _ _ _ _ keyed owner onward =>
      obtain ⟨-, rfl⟩ := onward.unique .here
      obtain ⟨table, rfl⟩ := fits.sideTable_inv
      cases key with
      | none => cases held
      | some id => exact fits.tableValue held

/-- An induction along a way through a legal node. Each step leads into the node it is taken in; one
that others follow leads to no entry of a listing, and its child is there or is missing. -/
@[elab_as_elim]
theorem Leads.walk {motive : List Step → Node → Prop} (here : ∀ node, motive [] node)
    (last : ∀ step node, node.opens step = true → motive [step] node)
    (missing : ∀ step rest node, node.opens step = true → step.isListing = false → rest ≠ [] →
      node.child? step = none → motive (step :: rest) node)
    (below : ∀ step rest node child, node.opens step = true → step.isListing = false → rest ≠ [] →
      node.child? step = some child → motive rest child → motive (step :: rest) node)
    (leads : schema.Leads type segments steps target)
    (named : ∀ segment ∈ segments, segment.isParameter = false) (fits : schema.Fits type node) :
    motive steps node := by
  induction segments generalizing type steps node with
  | nil =>
      cases leads
      exact here node
  | cons segment segments ih =>
      obtain ⟨parameterless, named⟩ := List.forall_mem_cons.mp named
      obtain ⟨step, rest, next, rfl, first, onward⟩ := leads.cons_cases
      have opens := first.opens parameterless fits
      by_cases more : rest = []
      · subst more
        exact last step node opens
      · have bare := leads.isListing_eq_false more
        cases held : node.child? step with
        | none => exact missing step rest node opens bare more held
        | some child =>
            have onward := ih onward named (first.child_fits fits held)
            exact below step rest node child opens bare more held onward

/-! ### Storing -/

/-- A value is stored in a legal node when something is stored above its place, and otherwise that
is what is missing: only the last step may lead to what is not there. -/
theorem Leads.writeSteps_cases (leads : schema.Leads type segments steps target)
    (named : ∀ segment ∈ segments, segment.isParameter = false) (fits : schema.Fits type node)
    (path : Path) (value : Node) :
    (node.stores steps.dropLast = true ∧ ∃ after, writeSteps path steps node value = .ok after) ∨
      (node.stores steps.dropLast = false ∧
        writeSteps path steps node value = .error (.nonexistent path)) := by
  refine leads.walk ?here ?last ?missing ?below named fits
  case here => exact fun node => Or.inl ⟨rfl, value, rfl⟩
  case last => exact fun step node opens => Or.inl ⟨rfl, writeSteps_last opens path value⟩
  case missing =>
    intro step rest node opens bare more held
    rw [List.dropLast_cons_of_ne_nil more, writeSteps_below opens bare more,
      Node.stores_cons_of_bare bare, held]
    exact Or.inr ⟨rfl, rfl⟩
  case below =>
    intro step rest node child opens bare more held inner
    rw [List.dropLast_cons_of_ne_nil more, writeSteps_below opens bare more,
      Node.stores_cons_of_bare bare, held]
    rcases inner with ⟨there, after, written⟩ | ⟨absent, failed⟩
    · exact Or.inl ⟨there, node.withChild step after, by simp [orNonexistent, written]⟩
    · exact Or.inr ⟨absent, by simp [orNonexistent, failed]⟩

/-! ### Reading -/

variable {root : Node}

/-- The domains that the type of a child names are among those of the schema. -/
theorem Leads.child_domains (first : schema.Leads type [segment] [step] next)
    (named : type.domains ⊆ schema.domains) : next.domains ⊆ schema.domains := by
  cases first with
  | field found declared onward =>
      obtain ⟨-, rfl⟩ := onward.unique .here
      exact domains_of_declared found (StructDef.mem_of_field? declared).1
  | catalogEntry keyed onward =>
      obtain ⟨-, rfl⟩ := onward.unique .here
      exact List.nil_subset _
  | listingEntry => exact List.nil_subset _
  | tableEntry keyed owner onward =>
      obtain ⟨-, rfl⟩ := onward.unique .here
      exact fun domain deeper => named (List.mem_cons_of_mem _ deeper)

/-- The catalog at a domain of a valid tree is what its steps read, or is missing. -/
theorem SoundDomains.domainCatalog_eq (sound : schema.SoundDomains) (valid : schema.Valid root)
    {domain : Path} {inner : List Step} {entity : String} (declared : domain ∈ schema.domains)
    (owner : schema.Leads schema.rootType domain.segments inner (.catalog entity)) (path : Path) :
    domainCatalog path (readSteps root domain inner root) =
      orNonexistent path (schema.catalog? root domain) := by
  have bare := Path.isParameterized_eq_false_iff.mp (sound domain declared).1
  rw [sound.catalog?_eq declared owner]
  rcases owner.reaches sound valid domain bare (List.nil_subset _) valid with
    ⟨node, read, fits⟩ | absent
  · obtain ⟨entities, rfl⟩ := fits.catalog_inv
    rw [read]
    rfl
  · rw [absent]
    rfl

/-- A step that leads to no entry of a listing reads what the node holds there, while that is
live. -/
theorem Leads.readStep_eq (sound : schema.SoundDomains) (valid : schema.Valid root)
    (first : schema.Leads type [segment] [step] next) (free : segment.isParameter = false)
    (named : type.domains ⊆ schema.domains) (fits : schema.Fits type node)
    (bare : step.isListing = false) (path : Path) :
    readStep root path step node =
      if step.isLive schema root then orNonexistent path (node.child? step)
      else .error (.nonexistent path) := by
  have opens := first.opens free fits
  unfold Node.opens at opens
  split at opens
  · rfl
  · rfl
  · cases bare
  · rename_i table key domain inner
    -- Only an entry of a side table looks beyond the node, at the catalog of its domain.
    cases first with
    | tableEntry keyed owner onward =>
        have declared := named List.mem_cons_self
        have unbound := (sound _ declared).1
        obtain ⟨entity, rfl⟩ := sound.leads_catalog declared owner
        have owned := sound.domainCatalog_eq valid declared owner path
        have live : Step.isLive schema root (.tableEntry (some key) domain inner) =
            ((schema.catalog? root domain).bind fun entities => entities.get? key).isSome := rfl
        rw [live]
        simp only [readStep, orUnbound, Node.asSideTable, locate, Path.requireBound, unbound,
          owned, ok_bind, Node.child?, Bool.false_eq_true, if_false]
        cases table.get? key with
        | none => exact (ite_self _).symm
        | some value =>
            cases schema.catalog? root domain with
            | none => rfl
            | some entities => rfl
  · cases opens

/-- Steps that lead to no entry of a listing read what stands at their end, while every entry of a
side table on the way is live. -/
theorem Leads.readSteps_eq (sound : schema.SoundDomains) (valid : schema.Valid root)
    (leads : schema.Leads type segments steps target)
    (free : ∀ segment ∈ segments, segment.isParameter = false)
    (named : type.domains ⊆ schema.domains) (fits : schema.Fits type node)
    (bare : ∀ step ∈ steps, step.isListing = false) (path : Path) :
    readSteps root path steps node =
      if steps.all (Step.isLive schema root) then orNonexistent path (node.descendant? steps)
      else .error (.nonexistent path) := by
  induction segments generalizing type steps node with
  | nil =>
      cases leads
      rfl
  | cons segment segments ih =>
      obtain ⟨parameterless, free⟩ := List.forall_mem_cons.mp free
      obtain ⟨step, rest, next, rfl, first, onward⟩ := leads.cons_cases
      obtain ⟨plain, bare⟩ := List.forall_mem_cons.mp bare
      rw [readSteps, first.readStep_eq sound valid parameterless named fits plain, List.all_cons,
        Node.descendant?]
      cases step.isLive schema root with
      | false => rfl
      | true =>
          cases held : node.child? step with
          | none => simp [orNonexistent]
          | some child =>
              exact ih onward free (first.child_domains named) (first.child_fits fits held) bare

end Schema

/-! ### Readers and writers -/

namespace Accessor

variable {schema : Schema} {root value : Node} {path parent : Path} {accessor : Accessor}

/-- A value that passes its checks is stored while something is stored above its place, and
otherwise that is what is missing. -/
theorem set_cases (valid : schema.Valid root) (resolved : schema.resolve path = .ok accessor)
    (checked : accessor.checkValue schema value = .ok ()) :
    (root.stores accessor.steps.dropLast = true ∧
        ∃ after, accessor.set schema root value = .ok after) ∨
      (root.stores accessor.steps.dropLast = false ∧
        accessor.set schema root value = .error (.nonexistent path)) := by
  obtain ⟨⟨⟩, bound, -⟩ := bind_eq_ok_iff.mp checked
  have free := Path.isParameterized_eq_false_iff.mp (requireBound_eq_ok_iff.mp bound)
  obtain rfl := Schema.path_of_resolve resolved
  have written : accessor.set schema root value =
      writeSteps accessor.path accessor.steps root value := by
    rw [set, checked]
    rfl
  rw [written]
  exact (Schema.leads_of_resolve resolved).writeSteps_cases free valid accessor.path value

/-- A location exists when something is read there. -/
theorem exists?_iff : accessor.exists? root = true ↔ ∃ node, accessor.get root = .ok node := by
  unfold exists?
  cases accessor.get root <;> simp [Except.isOk, Except.toBool]

/-- Reading a valid tree reaches a value of the target's type, or says that nothing is there. -/
theorem get_reaches (sound : schema.SoundDomains) (valid : schema.Valid root)
    (free : path.isParameterized = false) (resolved : schema.resolve path = .ok accessor) :
    Reaches schema accessor.target path (accessor.get root) := by
  obtain rfl := Schema.path_of_resolve resolved
  rw [get, requireBound_eq_ok_iff.mpr free, ok_bind]
  exact (Schema.leads_of_resolve resolved).reaches sound valid accessor.path
    (Path.isParameterized_eq_false_iff.mp free) (List.nil_subset _) valid

/-- What is above a location is there for a reader when something is stored there and every side
table on the way has the entity of its entry. -/
theorem parent_exists_iff (sound : schema.SoundDomains) (valid : schema.Valid root)
    (free : path.isParameterized = false) (resolved : schema.resolve path = .ok accessor)
    (above : path.parent? = some parent) :
    ∃ outer, schema.resolve parent = .ok outer ∧ outer.steps = accessor.steps.dropLast ∧
      (outer.exists? root = true ↔
        root.stores outer.steps = true ∧ outer.isLive schema root = true) := by
  obtain ⟨reached, found⟩ := Schema.resolve_parent resolved above
  refine ⟨_, found, rfl, ?_⟩
  have leads := Schema.leads_of_resolve resolved
  have bare : ∀ step ∈ accessor.steps.dropLast, step.isListing = false := by
    intro step member
    have more : accessor.steps ≠ [] := fun none => by simp [none] at member
    rw [← List.dropLast_append_getLast more] at leads
    exact leads.bare_front step member
  have unbound : ∀ segment ∈ parent.segments, segment.isParameter = false := by
    intro segment member
    unfold Path.parent? at above
    split at above
    · cases above
    · cases above
      exact Path.isParameterized_eq_false_iff.mp free segment
        ((List.dropLast_sublist _).subset member)
  have read := (Schema.leads_of_resolve found).readSteps_eq sound valid unbound
    (List.nil_subset _) valid bare parent
  have bound := requireBound_eq_ok_iff.mpr (Path.isParameterized_eq_false_iff.mpr unbound)
  rw [exists?_iff, get, bound, ok_bind, read, Node.stores_eq_isSome bare, isLive]
  cases root.descendant? accessor.steps.dropLast <;>
    cases accessor.steps.dropLast.all (Step.isLive schema root) <;> simp [orNonexistent]

/-- Storing and reading agree on what is above a location, but for one case. A value that passes its
checks is stored exactly when something is stored at the parent; otherwise the location is missing,
and a replacement has no effect. The parent is there for a reader while, in addition, every side
table on the way has the entity of its entry. So the two agree exactly when the parent is not stored
below an entry that dangles. -/
theorem set_agrees_iff (sound : schema.SoundDomains) (valid : schema.Valid root)
    (resolved : schema.resolve path = .ok accessor) (above : path.parent? = some parent)
    (checked : accessor.checkValue schema value = .ok ()) :
    ∃ outer, schema.resolve parent = .ok outer ∧
      ((∃ after, accessor.set schema root value = .ok after) ↔ schema.Stores root parent) ∧
      (¬ schema.Stores root parent → accessor.set schema root value = .error (.nonexistent path)) ∧
      ((Operation.replacement path value).apply schema root = .ok none ↔
        ¬ schema.Stores root parent) ∧
      (((∃ after, accessor.set schema root value = .ok after) ↔ outer.exists? root = true) ↔
        (schema.Stores root parent → outer.isLive schema root = true)) := by
  obtain ⟨⟨⟩, bound, -⟩ := bind_eq_ok_iff.mp checked
  have free := requireBound_eq_ok_iff.mp bound
  rw [Schema.path_of_resolve resolved] at free
  obtain ⟨outer, found, steps, readable⟩ := parent_exists_iff sound valid free resolved above
  have applied : (Operation.replacement path value).apply schema root =
      Operation.replace schema accessor root value := by
    rw [Operation.apply, Operation.target, resolved]
    rfl
  refine ⟨outer, found, ?_⟩
  rw [applied, Operation.replace, readable, Schema.stores_iff found, steps]
  rcases set_cases valid resolved checked with ⟨there, after, written⟩ | ⟨missing, failed⟩
  · simp [there, written]
  · simp [missing, failed]

end Accessor

/-! ### In a circle of friends -/

namespace Sample

/-- The persons listed in the note on `b`, who is gone. -/
def others : Accessor :=
  ⟨.ofNames ["notes", "b", "others"],
    [.field "notes" false, .tableEntry (some b) persons [.field "persons" false],
      .field "others" false], .listing persons⟩

/-- The friends of a person `b`. -/
def friends : Accessor :=
  ⟨.ofNames ["persons", "b", "friends"],
    [.field "persons" false, .catalogEntry (some b), .field "friends" false], .listing persons⟩

/-- The person `a` alone on a list. -/
def list : Node := .listing ⟨persons, [a]⟩

/-- The company once `a` is on the list in the note. -/
def mentioned : Node :=
  .struct ⟨[("notes",
      .sideTable ⟨persons, [(b, .struct ⟨[("others", .listing ⟨persons, [a]⟩)]⟩)]⟩),
    ("persons", .catalog ⟨[(a, loner)]⟩)]⟩

/-- Where a person is missing, no friends are stored. -/
theorem friends_set_agrees :
    circle.SoundDomains ∧ circle.Valid company ∧ circle.resolve friends.path = .ok friends ∧
      friends.path.parent? = some (.ofNames ["persons", "b"]) ∧
      friends.checkValue circle list = .ok () ∧
      ∃ outer, circle.resolve (.ofNames ["persons", "b"]) = .ok outer ∧
        ((∃ after, friends.set circle company list = .ok after) ↔
          circle.Stores company (.ofNames ["persons", "b"])) ∧
        (¬ circle.Stores company (.ofNames ["persons", "b"]) →
          friends.set circle company list = .error (.nonexistent friends.path)) ∧
        ((Operation.replacement friends.path list).apply circle company = .ok none ↔
          ¬ circle.Stores company (.ofNames ["persons", "b"])) ∧
        (((∃ after, friends.set circle company list = .ok after) ↔
            outer.exists? company = true) ↔
          (circle.Stores company (.ofNames ["persons", "b"]) →
            outer.isLive circle company = true)) :=
  ⟨circle_soundDomains, company_valid, rfl, rfl, rfl,
    Accessor.set_agrees_iff circle_soundDomains company_valid rfl rfl rfl⟩

/-- The note on a person who is gone does not exist for a reader, and yet a list is stored in it, by
a replacement that takes effect. -/
theorem dangling_parent_written :
    SchemaBuilder.build ⟨"Circle", circle.types⟩ = .ok circle ∧ circle.SoundDomains ∧
      circle.Valid company ∧ circle.resolve others.path = .ok others ∧
      others.path.parent? = some (.ofNames ["notes", "b"]) ∧
      others.checkValue circle list = .ok () ∧
      (∃ outer, circle.resolve (.ofNames ["notes", "b"]) = .ok outer ∧
        outer.exists? company = false) ∧
      others.set circle company list = .ok mentioned ∧
      (Operation.replacement others.path list).apply circle company = .ok (some mentioned) :=
  ⟨rfl, circle_soundDomains, company_valid, rfl, rfl, rfl, ⟨_, rfl, rfl⟩, rfl, rfl⟩

end Sample

end StateTree
