/-
Module: StateTree.Proofs.Locations
Purpose: What stands where in a tree, seen without the domains that reading consults. A change
  leaves every child alone that is off its way, and on its way it is a change of the child; so what
  stands at the end of other steps is the same before and after, and what stands at the end of its
  own is what was stored.
-/
import StateTree.Proofs.Changes
import StateTree.Proofs.Resolution

namespace StateTree

/-- The segment that a step is taken for; a step that has no identifier is taken for none. -/
def Step.segment? : Step → Option Segment
  | .field name _ => some (.name name)
  | .catalogEntry key | .listingEntry key _ _ | .tableEntry key _ _ => key.map .entry

/-- Whether a step leads to an entry of a listing, which has nothing of its own below it. -/
def Step.isListing : Step → Bool
  | .listingEntry .. => true
  | _ => false

namespace Node

/-- What a node holds where a step leads. A listing holds nothing but identifiers. -/
def child? : Node → Step → Option Node
  | .struct fields, .field name _ => fields.get? name
  | .catalog entities, .catalogEntry (some key) => entities.get? key
  | .sideTable table, .tableEntry (some key) _ _ => table.get? key
  | _, _ => none

/-- What stands at the end of steps from a node, whether or not the domains on the way have the
entities. -/
def descendant? : Node → List Step → Option Node
  | node, [] => some node
  | node, step :: rest => do
      let child ← node.child? step
      child.descendant? rest

/-- Steps are gone one after the other. -/
theorem descendant?_append (node : Node) (front rest : List Step) :
    node.descendant? (front ++ rest) =
      (node.descendant? front).bind fun child => child.descendant? rest := by
  induction front generalizing node with
  | nil => rfl
  | cons step front ih =>
      rw [List.cons_append, descendant?, descendant?, Option.bind_eq_bind, Option.bind_assoc]
      exact Option.bind_congr fun child _ => ih child

end Node

/-- Steps are read one after the other. -/
theorem readSteps_append (root : Node) (path : Path) (front rest : List Step) (node : Node) :
    readSteps root path (front ++ rest) node =
      readSteps root path front node >>= readSteps root path rest := by
  induction front generalizing node with
  | nil => rfl
  | cons step front ih =>
      rw [List.cons_append, readSteps, readSteps, bind_assoc]
      exact bind_congr fun next => ih next

/-! ### The first step -/

/-- A segment that names an entry is the one of its identifier. -/
theorem Segment.eq_entry_of_key {segment : Segment} {id : Identifier}
    (keyed : segment.entryKey = .ok (some id)) : segment = .entry id := by
  cases segment with
  | parameter label => cases keyed
  | name text =>
      simp only [entryKey, Identifier.ofString] at keyed
      cases read : Identifier.ofString? text with
      | none => simp [read] at keyed
      | some found =>
          simp only [read] at keyed
          cases keyed
          rw [Identifier.ofString?_eq_some_iff.mp read]
          rfl

namespace Schema

variable {schema : Schema} {type next target : FieldType} {segment : Segment}
  {segments : List Segment} {step : Step} {steps rest : List Step}

/-- The first of several steps leads on its own, and the others from there. -/
theorem Leads.cons_cases (leads : schema.Leads type (segment :: segments) steps target) :
    ∃ step rest next, steps = step :: rest ∧ schema.Leads type [segment] [step] next ∧
      schema.Leads next segments rest target := by
  cases leads with
  | field found named onward => exact ⟨_, _, _, rfl, .field found named .here, onward⟩
  | catalogEntry keyed onward => exact ⟨_, _, _, rfl, .catalogEntry keyed .here, onward⟩
  | listingEntry keyed owner => exact ⟨_, _, _, rfl, .listingEntry keyed owner, .here⟩
  | tableEntry keyed owner onward => exact ⟨_, _, _, rfl, .tableEntry keyed owner .here, onward⟩

/-- A step that an identifier or a name led to is taken for it. -/
theorem Leads.segment?_eq (leads : schema.Leads type [segment] [step] next)
    (named : segment.isParameter = false) : step.segment? = some segment := by
  have entry {key : Option Identifier} (keyed : segment.entryKey = .ok key) :
      key.map Segment.entry = some segment := by
    obtain ⟨id, rfl⟩ := Segment.entryKey_eq_some named keyed
    rw [Segment.eq_entry_of_key keyed]
    rfl
  cases leads with
  | field => rfl
  | catalogEntry keyed => exact entry keyed
  | listingEntry keyed => exact entry keyed
  | tableEntry keyed => exact entry keyed

/-- Nothing is below an entry of a listing. -/
theorem Leads.isListing_eq_false (leads : schema.Leads type segments (step :: rest) target)
    (more : rest ≠ []) : step.isListing = false := by
  cases leads with
  | listingEntry => exact absurd rfl more
  | _ => rfl

/-- No step that others follow leads to an entry of a listing. -/
theorem Leads.bare_front {front : List Step}
    (leads : schema.Leads type segments (front ++ step :: rest) target) :
    ∀ other ∈ front, other.isListing = false := by
  induction front generalizing type segments with
  | nil => exact nofun
  | cons first front ih =>
      have bare := leads.isListing_eq_false (by simp)
      cases segments with
      | nil => cases leads
      | cons segment segments =>
          obtain ⟨_, _, _, same, -, onward⟩ := leads.cons_cases
          cases same
          exact List.forall_mem_cons.mpr ⟨bare, ih onward⟩

/-- Two ways of which neither goes on from the other share their first steps and part then: the
steps that follow are taken for different segments. By induction on the segments: equal ones lead
the same way. -/
theorem Leads.parting {whole : List Segment} {way : List Step} {goal : FieldType}
    (leads : schema.Leads type segments steps target) (led : schema.Leads type whole way goal)
    (named : ∀ segment ∈ segments, segment.isParameter = false)
    (free : ∀ segment ∈ whole, segment.isParameter = false)
    (outside : ¬ segments <+: whole) (beside : ¬ whole <+: segments) :
    ∃ front step rest other far, steps = front ++ step :: rest ∧ way = front ++ other :: far ∧
      step.segment? ≠ other.segment? := by
  induction segments generalizing type whole steps way with
  | nil => exact absurd List.nil_prefix outside
  | cons segment segments ih =>
      cases whole with
      | nil => exact absurd List.nil_prefix beside
      | cons other whole =>
          obtain ⟨step, rest, next, rfl, first, onward⟩ := leads.cons_cases
          obtain ⟨theirs, far, there, rfl, single, further⟩ := led.cons_cases
          obtain ⟨parameterless, named⟩ := List.forall_mem_cons.mp named
          obtain ⟨otherNamed, remaining⟩ := List.forall_mem_cons.mp free
          by_cases same : segment = other
          · subst same
            obtain ⟨alike, rfl⟩ := single.unique first
            cases alike
            rw [List.cons_prefix_cons, not_and] at outside beside
            obtain ⟨front, mine, rest, theirs, far, rfl, rfl, apart⟩ :=
              ih onward further named remaining (outside rfl) (beside rfl)
            exact ⟨step :: front, mine, rest, theirs, far, rfl, rfl, apart⟩
          · refine ⟨[], step, rest, theirs, far, rfl, rfl, ?_⟩
            rw [first.segment?_eq parameterless, single.segment?_eq otherNamed]
            exact fun equal => same (Option.some.inj equal)

end Schema

/-! ### Containers after a change -/

namespace Catalog

variable {α : Type}

@[simp] theorem get?_insert_self (entities : Catalog α) (id : Identifier) (value : α) :
    (entities.insert id value).get? id = some value :=
  Keyed.lookup_put_self id value entities.entries

theorem get?_insert_of_ne {id other : Identifier} (different : other ≠ id) (entities : Catalog α)
    (value : α) : (entities.insert id value).get? other = entities.get? other :=
  Keyed.lookup_put_of_ne different value entities.entries

@[simp] theorem get?_erase_self (entities : Catalog α) (id : Identifier) :
    (entities.erase id).get? id = none :=
  Keyed.lookup_drop_self id entities.entries

theorem get?_erase_of_ne {id other : Identifier} (different : other ≠ id) (entities : Catalog α) :
    (entities.erase id).get? other = entities.get? other :=
  Keyed.lookup_drop_of_ne different entities.entries

end Catalog

namespace SideTable

variable {α : Type}

@[simp] theorem get?_insert_self (table : SideTable α) (id : Identifier) (value : α) :
    (table.insert id value).get? id = some value :=
  Keyed.lookup_put_self id value table.entries

theorem get?_insert_of_ne {id other : Identifier} (different : other ≠ id) (table : SideTable α)
    (value : α) : (table.insert id value).get? other = table.get? other :=
  Keyed.lookup_put_of_ne different value table.entries

@[simp] theorem get?_erase_self (table : SideTable α) (id : Identifier) :
    (table.erase id).get? id = none :=
  Keyed.lookup_drop_self id table.entries

theorem get?_erase_of_ne {id other : Identifier} (different : other ≠ id) (table : SideTable α) :
    (table.erase id).get? other = table.get? other :=
  Keyed.lookup_drop_of_ne different table.entries

end SideTable

namespace Changes

variable {step other : Step} {front rest : List Step} {node after : Node} {change : Option Node}

/-- A change leaves the children alone that its first step does not lead to. -/
theorem child?_of_ne (changes : Changes (step :: rest) node change after)
    (apart : other.segment? ≠ step.segment?) : after.child? other = node.child? other := by
  have names {name : String} {first : String}
      (apart : some (Segment.name first) ≠ some (.name name)) : first ≠ name := by
    rintro rfl
    exact apart rfl
  have keys {id first : Identifier}
      (apart : (some first).map Segment.entry ≠ (some id).map Segment.entry) : first ≠ id := by
    rintro rfl
    exact apart rfl
  cases changes with
  | fieldStored | fieldErased | belowField =>
      cases other with
      | field => simp [Node.child?, Fields.get?_insert_of_ne, Fields.get?_erase_of_ne, names apart]
      | _ => rfl
  | entityStored | entityErased | belowEntity =>
      cases other with
      | catalogEntry key =>
          cases key with
          | none => rfl
          | some first =>
              simp [Node.child?, Catalog.get?_insert_of_ne, Catalog.get?_erase_of_ne, keys apart]
      | _ => rfl
  | listed | unlisted => cases other <;> rfl
  | valueStored | valueErased | belowValue =>
      cases other with
      | tableEntry key =>
          cases key with
          | none => rfl
          | some first =>
              simp [Node.child?, SideTable.get?_insert_of_ne, SideTable.get?_erase_of_ne,
                keys apart]
      | _ => rfl

/-- At its last step a change leaves what was stored, or nothing. -/
theorem child?_last (changes : Changes [step] node change after)
    (plain : step.isListing = false) : after.child? step = change := by
  cases changes with
  | belowField more | belowEntity more | belowValue more => exact absurd rfl more
  | listed | unlisted => cases plain
  | _ => simp [Node.child?]

/-- Before its last step a change is one of the child. -/
theorem child?_below (changes : Changes (step :: rest) node change after)
    (plain : step.isListing = false) (more : rest ≠ []) :
    ∃ current next, node.child? step = some current ∧ after.child? step = some next ∧
      Changes rest current change next := by
  cases changes with
  | belowField _ held onward => exact ⟨_, _, held, by simp [Node.child?], onward⟩
  | belowEntity _ held onward => exact ⟨_, _, held, by simp [Node.child?], onward⟩
  | belowValue _ held onward => exact ⟨_, _, held, by simp [Node.child?], onward⟩
  | listed | unlisted => cases plain
  | _ => exact absurd rfl more

/-- What was stored stands at the end of the change's own steps. -/
theorem descendant?_self (changes : Changes front node change after) (more : front ≠ [])
    (plain : ∀ step ∈ front, step.isListing = false) : after.descendant? front = change := by
  induction front generalizing node after with
  | nil => exact absurd rfl more
  | cons step rest ih =>
      obtain ⟨first, plain⟩ := List.forall_mem_cons.mp plain
      by_cases last : rest = []
      · subst last
        simp [Node.descendant?, changes.child?_last first]
      · obtain ⟨current, next, -, held, onward⟩ := changes.child?_below first last
        rw [Node.descendant?, held]
        exact ih onward last plain

/-- A value that was stored is there. -/
theorem descendant?_stored {value : Node} (changes : Changes front node (some value) after)
    (plain : ∀ step ∈ front, step.isListing = false) : after.descendant? front = some value := by
  cases front with
  | nil =>
      cases changes
      rfl
  | cons step rest => exact changes.descendant?_self (by simp) plain

/-- After the first of its steps a change is one of what stands there. -/
theorem descendant?_below (changes : Changes (front ++ rest) node change after)
    (plain : ∀ step ∈ front, step.isListing = false) (more : rest ≠ []) :
    ∃ current next, node.descendant? front = some current ∧
      after.descendant? front = some next ∧ Changes rest current change next := by
  induction front generalizing node after with
  | nil => exact ⟨node, after, rfl, rfl, changes⟩
  | cons step front ih =>
      obtain ⟨first, plain⟩ := List.forall_mem_cons.mp plain
      obtain ⟨current, next, here, there, onward⟩ := changes.child?_below first (by simp [more])
      obtain ⟨last, final, before, behind, onward⟩ := ih onward plain
      refine ⟨last, final, ?_, ?_, onward⟩
      · rw [Node.descendant?, here]
        exact before
      · rw [Node.descendant?, there]
        exact behind

end Changes

namespace Schema

/-- What stands at the end of steps that are neither on the way of a change nor below its end is the
same afterwards: where the two ways part, the child is off the way. -/
theorem Leads.descendant?_of_apart {schema : Schema} {type target goal : FieldType}
    {segments whole : List Segment} {steps way : List Step} {node after : Node}
    {change : Option Node} (leads : schema.Leads type segments steps target)
    (led : schema.Leads type whole way goal) (changes : Changes way node change after)
    (named : ∀ segment ∈ segments, segment.isParameter = false)
    (free : ∀ segment ∈ whole, segment.isParameter = false)
    (outside : ¬ segments <+: whole) (beside : ¬ whole <+: segments) :
    after.descendant? steps = node.descendant? steps := by
  obtain ⟨front, step, rest, other, far, rfl, rfl, apart⟩ :=
    leads.parting led named free outside beside
  obtain ⟨current, next, here, there, onward⟩ :=
    changes.descendant?_below led.bare_front (by simp)
  rw [Node.descendant?_append, Node.descendant?_append, here, there]
  simp only [Option.bind_some, Node.descendant?, onward.child?_of_ne apart]

end Schema

end StateTree
