/-
Module: StateTree.Proofs.Scopes
Purpose: Scopes that pass only through fields and entries of catalogs, with parameters in the place
  of entries. What such a scope enumerates are its instances, and every instance that a tree has is
  among them; an instance is read without any domain, and what a change leaves there is found or is
  absent.
-/
import StateTree.Proofs.Binding
import StateTree.Proofs.Locations
import StateTree.Proofs.Reading
import StateTree.Accessor.Enumerate

namespace StateTree

/-- Whether a step leads to a field or to an entry of a catalog. -/
def Step.isPlain : Step → Bool
  | .field .. | .catalogEntry _ => true
  | _ => false

/-- Whether all steps do. -/
def Step.ArePlain (steps : List Step) : Prop := ∀ step ∈ steps, step.isPlain = true

theorem Step.isListing_of_isPlain {step : Step} (plain : step.isPlain = true) :
    step.isListing = false := by
  cases step <;> first | rfl | cases plain

/-- Whether a step leads to an entry is whether the segment that it stands for matches it. -/
theorem Segment.leadsTo_eq {segment : Segment} {key : Option Identifier}
    (keyed : segment.entryKey = .ok key) (id : Identifier) :
    leadsTo key id = (segment.isParameter || Segment.entry id == segment) := by
  cases segment with
  | parameter label =>
      cases keyed
      rfl
  | name text =>
      obtain ⟨wanted, rfl⟩ := Segment.entryKey_eq_some rfl keyed
      rw [Segment.eq_entry_of_key keyed, Bool.eq_iff_iff]
      change (wanted == id) = true ↔ (Segment.entry id == Segment.entry wanted) = true
      rw [beq_iff_eq, beq_iff_eq, Segment.entry_injective.eq_iff, eq_comm]

/-! ### Reading -/

section Reading

variable {root node next after : Node} {path : Path} {step : Step} {steps rest : List Step}
  {change : Option Node}

theorem readStep_eq_ok_iff (plain : step.isPlain = true) :
    readStep root path step node = .ok next ↔ node.child? step = some next := by
  cases step with
  | field name deletable =>
      cases node <;> simp [readStep, Node.child?, Node.asStruct, locate, orNonexistent_eq_ok_iff]
  | catalogEntry key =>
      cases key <;> cases node <;>
        simp [readStep, Node.child?, Node.asCatalog, locate, orUnbound, orNonexistent_eq_ok_iff]
  | listingEntry | tableEntry => cases plain

/-- Plain steps read what stands at their end. -/
theorem readSteps_eq_ok_iff (plain : Step.ArePlain steps) :
    readSteps root path steps node = .ok next ↔ node.descendant? steps = some next := by
  induction steps generalizing node with
  | nil => simp [readSteps, Node.descendant?]
  | cons step rest ih =>
      obtain ⟨first, plain⟩ := List.forall_mem_cons.mp plain
      rw [readSteps, bind_eq_ok_iff, Node.descendant?, Option.bind_eq_bind,
        Option.bind_eq_some_iff]
      exact exists_congr fun child => and_congr (readStep_eq_ok_iff first) (ih plain)

/-- The first step of a change is read as what it has left there. -/
theorem Changes.readStep_after (changes : Changes (step :: rest) node change after)
    (plain : step.isPlain = true) :
    readStep root path step after = orNonexistent path (after.child? step) := by
  cases changes with
  | fieldStored | fieldErased | belowField => rfl
  | entityStored | entityErased | belowEntity => rfl
  | listed | unlisted | valueStored | valueErased | belowValue => cases plain

/-- At the end of its steps a change has left what was stored, or nothing. -/
theorem Changes.readSteps_after (changes : Changes steps node change after)
    (plain : Step.ArePlain steps) :
    readSteps root path steps after = orNonexistent path change := by
  induction steps generalizing node after with
  | nil =>
      cases changes
      rfl
  | cons step rest ih =>
      obtain ⟨first, plain⟩ := List.forall_mem_cons.mp plain
      rw [readSteps, changes.readStep_after first]
      by_cases last : rest = []
      · subst last
        rw [changes.child?_last (Step.isListing_of_isPlain first)]
        exact bind_pure _
      · obtain ⟨current, following, -, there, onward⟩ :=
          changes.child?_below (Step.isListing_of_isPlain first) last
        rw [there]
        exact ih onward plain

end Reading

namespace Schema

variable {schema : Schema} {type target goal : FieldType} {segments whole more : List Segment}
  {steps own way : List Step}

/-- Plain steps from a value of their type reach a value of the type they end at, whatever the
domains of the schema are. -/
theorem Leads.reaches_plain (leads : schema.Leads type segments steps target)
    (plain : Step.ArePlain steps) (named : ∀ segment ∈ segments, segment.isParameter = false)
    (root : Node) (path : Path) {node : Node} (fits : schema.Fits type node) :
    Reaches schema target path (readSteps root path steps node) := by
  induction leads generalizing node with
  | here => exact .of_fits fits
  | field found first onward ih =>
      refine Reaches.bind (readStep_field_reaches found first fits _) fun next fits => ?_
      exact ih (List.forall_mem_cons.mp plain).2 (List.forall_mem_cons.mp named).2 fits
  | catalogEntry keyed onward ih =>
      obtain ⟨parameterless, named⟩ := List.forall_mem_cons.mp named
      obtain ⟨id, rfl⟩ := Segment.entryKey_eq_some parameterless keyed
      refine Reaches.bind (readStep_catalogEntry_reaches fits) fun next fits => ?_
      exact ih (List.forall_mem_cons.mp plain).2 named fits
  | listingEntry => cases plain _ List.mem_cons_self
  | tableEntry => cases plain _ List.mem_cons_self

/-- Segments that go on lead on from where the others end. -/
theorem Leads.extend (leads : schema.Leads type segments steps target)
    (led : schema.Leads type whole way goal) (longer : whole = segments ++ more) :
    ∃ rest, way = steps ++ rest ∧ schema.Leads target more rest goal := by
  induction leads generalizing whole way with
  | here =>
      subst longer
      exact ⟨way, rfl, led⟩
  | field found named _ ih =>
      cases led with
      | here => cases longer
      | field found' named' onward' =>
          cases longer
          cases found.symm.trans found'
          cases named.symm.trans named'
          obtain ⟨rest, rfl, onward⟩ := ih onward' rfl
          exact ⟨rest, rfl, onward⟩
  | catalogEntry keyed _ ih =>
      cases led with
      | here => cases longer
      | catalogEntry keyed' onward' =>
          cases longer
          cases keyed.symm.trans keyed'
          obtain ⟨rest, rfl, onward⟩ := ih onward' rfl
          exact ⟨rest, rfl, onward⟩
  | listingEntry keyed owner =>
      cases led with
      | here => cases longer
      | listingEntry keyed' owner' =>
          cases longer
          cases keyed.symm.trans keyed'
          obtain ⟨rfl, same⟩ := owner.unique owner'
          cases same
          exact ⟨[], rfl, .here⟩
  | tableEntry keyed owner _ _ ih =>
      cases led with
      | here => cases longer
      | tableEntry keyed' owner' onward' =>
          cases longer
          cases keyed.symm.trans keyed'
          obtain ⟨rfl, -⟩ := owner.unique owner'
          obtain ⟨rest, rfl, onward⟩ := ih onward' rfl
          exact ⟨rest, rfl, onward⟩

/-- Where a plain way overlaps that of a change, something is found after the change or nothing is
there. -/
theorem Leads.found_or_absent (leads : schema.Leads type segments steps target)
    (plain : Step.ArePlain steps) (named : ∀ segment ∈ segments, segment.isParameter = false)
    (led : schema.Leads type whole way goal) {node after : Node} {change : Option Node}
    (changes : Changes way node change after)
    (fits : ∀ value, change = some value → schema.Fits goal value)
    (overlap : segments <+: whole ∨ whole <+: segments) (root : Node) (path : Path) :
    (∃ found, readSteps root path steps after = .ok found) ∨
      readSteps root path steps after = .error (.nonexistent path) := by
  rcases overlap with ⟨more, rfl⟩ | ⟨more, rfl⟩
  · obtain ⟨rest, rfl, -⟩ := leads.extend led rfl
    by_cases last : rest = []
    · subst last
      rw [List.append_nil] at changes
      rw [changes.readSteps_after plain]
      cases change with
      | none => exact Or.inr rfl
      | some value => exact Or.inl ⟨value, rfl⟩
    · obtain ⟨current, next, -, there, -⟩ :=
        changes.descendant?_below (fun step member => Step.isListing_of_isPlain (plain step member))
          last
      exact Or.inl ⟨next, (readSteps_eq_ok_iff plain).mpr there⟩
  · obtain ⟨rest, rfl, onward⟩ := led.extend leads rfl
    rw [Step.ArePlain, List.forall_mem_append] at plain
    rw [readSteps_append, changes.readSteps_after plain.1]
    cases change with
    | none => exact Or.inr rfl
    | some value =>
        have bare := fun segment member => named segment (List.mem_append_right whole member)
        rcases onward.reaches_plain plain.2 bare root path (fits value rfl) with
          ⟨found, read, -⟩ | absent
        · exact Or.inl ⟨found, read⟩
        · exact Or.inr absent

/-! ### Instances -/

/-- Segments that match those of a plain scope lead by plain steps to the same type. -/
theorem Leads.instance (leads : schema.Leads type whole steps target)
    (plain : Step.ArePlain steps) (suits : Path.matchesSegments segments whole = true)
    (led : schema.Leads type segments own goal) : Step.ArePlain own ∧ goal = target := by
  induction leads generalizing segments own with
  | here =>
      cases led with
      | here => exact ⟨nofun, rfl⟩
      | _ => cases suits
  | field found named _ ih =>
      cases led with
      | here => cases suits
      | field found' named' onward' =>
          simp only [Path.matchesSegments, Segment.isParameter, Bool.false_or, Bool.and_eq_true,
            beq_iff_eq, Segment.name.injEq] at suits
          obtain ⟨rfl, suits⟩ := suits
          cases found.symm.trans found'
          cases named.symm.trans named'
          obtain ⟨others, same⟩ := ih (List.forall_mem_cons.mp plain).2 suits onward'
          exact ⟨List.forall_mem_cons.mpr ⟨rfl, others⟩, same⟩
  | catalogEntry keyed _ ih =>
      cases led with
      | here => cases suits
      | catalogEntry keyed' onward' =>
          rw [Path.matchesSegments, Bool.and_eq_true] at suits
          obtain ⟨others, same⟩ := ih (List.forall_mem_cons.mp plain).2 suits.2 onward'
          exact ⟨List.forall_mem_cons.mpr ⟨rfl, others⟩, same⟩
  | listingEntry => cases plain _ List.mem_cons_self
  | tableEntry => cases plain _ List.mem_cons_self

/-- Plain steps are resolved without any domain. -/
theorem Leads.stepsAlong_eq (leads : schema.Leads type segments steps target)
    (plain : Step.ArePlain steps) (domainAt : Path → Except TreeError Accessor) (path : Path)
    (index : Nat) :
    schema.stepsAlong domainAt path index type segments = .ok (steps, target) := by
  induction leads generalizing index with
  | here => rfl
  | field found named _ ih =>
      have required := requireStruct_eq_ok_iff.mpr found
      simp [stepsAlong, stepInto, required, named, ih (List.forall_mem_cons.mp plain).2]
  | catalogEntry keyed _ ih =>
      simp [stepsAlong, stepInto, keyed, ih (List.forall_mem_cons.mp plain).2]
  | listingEntry => cases plain _ List.mem_cons_self
  | tableEntry => cases plain _ List.mem_cons_self

/-- A path along plain steps from the root resolves. -/
theorem Leads.resolve_eq {path : Path}
    (leads : schema.Leads schema.rootType path.segments steps target)
    (plain : Step.ArePlain steps) : schema.resolve path = .ok ⟨path, steps, target⟩ := by
  simp [resolve, resolveWithin, leads.stepsAlong_eq plain]

/-- An instance of a plain scope is the scope with entries in the place of the parameters. -/
theorem Leads.exists_fills_instance (leads : schema.Leads type whole steps target)
    (plain : Step.ArePlain steps) (suits : Path.matchesSegments segments whole = true)
    (named : ∀ segment ∈ segments, segment.isParameter = false)
    (led : schema.Leads type segments own goal) : ∃ ids, Path.Fills ids segments whole := by
  induction leads generalizing segments own with
  | here =>
      rw [Path.matchesSegments_nil_iff.mp suits]
      exact ⟨[], .done⟩
  | field found declared _ ih =>
      cases led with
      | here => cases suits
      | field found' declared' onward' =>
          simp only [Path.matchesSegments, Segment.isParameter, Bool.false_or, Bool.and_eq_true,
            beq_iff_eq, Segment.name.injEq] at suits
          obtain ⟨rfl, suits⟩ := suits
          cases found.symm.trans found'
          cases declared.symm.trans declared'
          obtain ⟨ids, fills⟩ := ih (List.forall_mem_cons.mp plain).2 suits
            (List.forall_mem_cons.mp named).2 onward'
          exact ⟨ids, .name fills⟩
  | catalogEntry keyed _ ih =>
      cases led with
      | here => cases suits
      | catalogEntry keyed' onward' =>
          obtain ⟨parameterless, others⟩ := List.forall_mem_cons.mp named
          rw [Path.matchesSegments, Bool.and_eq_true] at suits
          obtain ⟨id, rfl⟩ := Segment.entryKey_eq_some parameterless keyed'
          obtain rfl := Segment.eq_entry_of_key keyed'
          exact Path.Fills.exists_entry suits.1
            (ih (List.forall_mem_cons.mp plain).2 suits.2 others onward')
  | listingEntry => cases plain _ List.mem_cons_self
  | tableEntry => cases plain _ List.mem_cons_self

/-! ### Enumeration -/

/-- Every location that a plain scope enumerates below a path is an instance of it. -/
theorem Leads.of_mem_locations (leads : schema.Leads type whole steps target)
    (plain : Step.ArePlain steps) {node : Node} {base path : Path}
    (member : path ∈ locations steps node base) :
    ∃ segments own, path.segments = base.segments ++ segments ∧
      Path.matchesSegments segments whole = true ∧
      (∀ segment ∈ segments, segment.isParameter = false) ∧
      schema.Leads type segments own target := by
  induction leads generalizing node base with
  | here =>
      rw [locations, List.mem_singleton] at member
      exact ⟨[], [], by rw [member, List.append_nil], rfl, nofun, .here⟩
  | @field type name struct declared rest steps target found first _ ih =>
      cases node with
      | struct fields =>
          rw [locations] at member
          cases held : fields.get? name with
          | none => simp [held] at member
          | some child =>
              simp only [held] at member
              obtain ⟨segments, own, split, suits, named, led⟩ :=
                ih (List.forall_mem_cons.mp plain).2 member
              refine ⟨.name name :: segments, _, ?_, ?_, ?_, .field found first led⟩
              · simp [split, Path.field, Path.push]
              · simp [Path.matchesSegments, suits]
              · exact List.forall_mem_cons.mpr ⟨rfl, named⟩
      | _ => cases member
  | @catalogEntry entity theirs key rest steps target keyed _ ih =>
      cases node with
      | catalog entities =>
          rw [locations, List.mem_flatMap] at member
          obtain ⟨⟨id, child⟩, held, member⟩ := member
          have mine := (Segment.leadsTo_eq keyed id).symm.trans (List.mem_filter.mp held).2
          obtain ⟨segments, own, split, suits, named, led⟩ :=
            ih (List.forall_mem_cons.mp plain).2 member
          refine ⟨.entry id :: segments, _, ?_, ?_, ?_,
            .catalogEntry (Segment.entryKey_entry id) led⟩
          · simp [split, Path.entry, Path.push]
          · rw [Path.matchesSegments, mine, suits]
            rfl
          · exact List.forall_mem_cons.mpr ⟨rfl, named⟩
      | _ => cases member
  | listingEntry => cases plain _ List.mem_cons_self
  | tableEntry => cases plain _ List.mem_cons_self

/-- Every instance that a node holds is among the locations that are enumerated. -/
theorem Leads.mem_locations (leads : schema.Leads type whole steps target)
    (plain : Step.ArePlain steps) (suits : Path.matchesSegments segments whole = true)
    (led : schema.Leads type segments own goal) {node found : Node}
    (held : node.descendant? own = some found) (base : Path) :
    ⟨base.segments ++ segments⟩ ∈ locations steps node base := by
  induction leads generalizing segments own node base with
  | here =>
      cases led with
      | here => simp [locations]
      | _ => cases suits
  | field structured declared _ ih =>
      cases led with
      | here => cases suits
      | field structured' declared' onward' =>
          simp only [Path.matchesSegments, Segment.isParameter, Bool.false_or, Bool.and_eq_true,
            beq_iff_eq, Segment.name.injEq] at suits
          obtain ⟨rfl, suits⟩ := suits
          cases structured.symm.trans structured'
          cases declared.symm.trans declared'
          obtain ⟨child, first, below⟩ := Option.bind_eq_some_iff.mp held
          cases node with
          | struct fields =>
              change fields.get? _ = some child at first
              rw [locations, first]
              simpa [Path.field, Path.push] using
                ih (List.forall_mem_cons.mp plain).2 suits onward' below (base.field _)
          | _ => cases first
  | @catalogEntry entity theirs key rest steps target keyed _ ih =>
      cases led with
      | here => cases suits
      | @catalogEntry _ mine key' _ _ _ keyed' onward' =>
          rw [Path.matchesSegments, Bool.and_eq_true] at suits
          obtain ⟨child, first, below⟩ := Option.bind_eq_some_iff.mp held
          cases node with
          | catalog entities =>
              cases key' with
              | none => cases first
              | some id =>
                  change entities.get? id = some child at first
                  obtain rfl := Segment.eq_entry_of_key keyed'
                  rw [locations, List.mem_flatMap]
                  refine ⟨(id, child), List.mem_filter.mpr ⟨Keyed.mem_of_lookup first, ?_⟩, ?_⟩
                  · exact (Segment.leadsTo_eq keyed id).trans suits.1
                  · simpa [Path.entry, Path.push] using
                      ih (List.forall_mem_cons.mp plain).2 suits.2 onward' below (base.entry id)
          | _ => cases first
  | listingEntry => cases plain _ List.mem_cons_self
  | tableEntry => cases plain _ List.mem_cons_self

end Schema

end StateTree
