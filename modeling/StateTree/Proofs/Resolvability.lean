/-
Module: StateTree.Proofs.Resolvability
Purpose: Which paths resolve, and what is wrong with the others. Resolving a path asks for the
  domains on its way, which ask for others in turn. Where no domain leads through itself, a chain of
  domains that ask for one another has each of them once, so it ends within the bound on their
  number; and a path of names that are not empty resolves or is malformed.
-/
import Mathlib.Data.List.Perm.Subperm
import Mathlib.Logic.Relation
import StateTree.Proofs.Acceptance
import StateTree.Proofs.Ancestors

namespace StateTree

/-! ### Outcomes -/

/-- If an outcome is an error, it says that a path is malformed. -/
def OnlyMalformed {α : Type} (outcome : Except TreeError α) : Prop :=
  ∀ error, outcome = .error error → ∃ path fault, error = .malformedPath path fault

namespace OnlyMalformed

variable {α β : Type} {outcome : Except TreeError α}

@[simp] theorem ok (value : α) : OnlyMalformed (.ok value) := nofun

@[simp] theorem malformed (path : Path) (fault : PathFault) :
    OnlyMalformed (.error (.malformedPath path fault) : Except TreeError α) := by
  rintro _ ⟨⟩
  exact ⟨path, fault, rfl⟩

theorem bind {onward : α → Except TreeError β} (first : OnlyMalformed outcome)
    (further : ∀ value, outcome = .ok value → OnlyMalformed (onward value)) :
    OnlyMalformed (outcome >>= onward) := by
  cases outcome with
  | ok value => exact further value rfl
  | error cause =>
      rintro _ ⟨⟩
      exact first cause rfl

theorem cases_of (only : OnlyMalformed outcome) :
    (∃ value, outcome = .ok value) ∨
      ∃ path fault, outcome = .error (.malformedPath path fault) := by
  cases outcome with
  | ok value => exact Or.inl ⟨value, rfl⟩
  | error error =>
      obtain ⟨path, fault, rfl⟩ := only error rfl
      exact Or.inr ⟨path, fault, rfl⟩

end OnlyMalformed

/-- A segment whose name is not empty has a key. -/
theorem Segment.exists_entryKey {segment : Segment} (named : segment ≠ .name "") :
    ∃ key, segment.entryKey = .ok key := by
  cases segment with
  | parameter label => exact ⟨none, rfl⟩
  | name text =>
      have some : text ≠ "" := fun empty => named (congrArg Segment.name empty)
      simp [entryKey, Identifier.ofString, Identifier.ofString?, some]

namespace Schema

variable {schema : Schema} {type next target : FieldType} {segment : Segment}
  {segments : List Segment} {step : Step} {steps : List Step}

/-! ### Chains of domains -/

/-- Resolving segments, from a location of a type on, asks for a domain. -/
inductive Consults (schema : Schema) (domain : Path) : FieldType → List Segment → Prop
  /-- An entry of a listing is looked up where nothing follows it. -/
  | listing {segment : Segment} : Consults schema domain (.listing domain) [segment]
  | sideTable {value : FieldType} {segment : Segment} {segments : List Segment} :
      Consults schema domain (.sideTable domain value) (segment :: segments)
  | onward {type next : FieldType} {segment : Segment} {segments : List Segment} {step : Step}
      (first : schema.Leads type [segment] [step] next) (bare : step.isListing = false)
      (rest : Consults schema domain next segments) :
      Consults schema domain type (segment :: segments)

theorem Consults.ne_nil {domain : Path} (consults : schema.Consults domain type segments) :
    segments ≠ [] := by
  cases consults <;> exact List.cons_ne_nil _ _

/-- Resolving a path asks for a domain. -/
def Asks (schema : Schema) (path domain : Path) : Prop :=
  schema.Consults domain schema.rootType path.segments

/-- Resolving a path asks for a domain, or for one that leads to it in this way. -/
def LeadsThrough (schema : Schema) : Path → Path → Prop := Relation.TransGen schema.Asks

/-- What is asked for is a domain of the schema. -/
theorem Consults.mem_domains {domain : Path} (consults : schema.Consults domain type segments)
    (named : type.domains ⊆ schema.domains) : domain ∈ schema.domains := by
  induction consults with
  | listing => exact named List.mem_cons_self
  | sideTable => exact named List.mem_cons_self
  | onward first bare rest ih => exact ih (first.child_domains named)

/-! ### One step -/

section Step

variable {domainAt : Path → Except TreeError Accessor} {path : Path} {index : Nat} {isLast : Bool}

/-- A step that is taken leads from its type. -/
theorem leads_of_stepInto
    (domainsLead : ∀ domain accessor, domainAt domain = .ok accessor →
      schema.Leads schema.rootType domain.segments accessor.steps accessor.target)
    (stepped : schema.stepInto domainAt path index type segment isLast = .ok (step, next)) :
    schema.Leads type [segment] [step] next := by
  have along : schema.stepsAlong domainAt path index type [segment] = .ok ([step], next) :=
    bind_eq_ok_iff.mpr ⟨_, stepInto_of_last stepped fun _ => rfl, rfl⟩
  exact leads_of_stepsAlong domainsLead along

/-- A step that others follow leads to no entry of a listing. -/
theorem isListing_of_stepInto
    (stepped : schema.stepInto domainAt path index type segment false = .ok (step, next)) :
    step.isListing = false := by
  cases type with
  | struct name =>
      cases segment with
      | parameter label => cases stepped
      | name field =>
          obtain ⟨struct, -, stepped⟩ := bind_eq_ok_iff.mp stepped
          split at stepped
          · cases stepped
            rfl
          · cases stepped
  | catalog entity =>
      obtain ⟨key, -, stepped⟩ := bind_eq_ok_iff.mp stepped
      cases stepped
      rfl
  | sideTable domain value =>
      obtain ⟨resolved, -, stepped⟩ := bind_eq_ok_iff.mp stepped
      obtain ⟨key, -, stepped⟩ := bind_eq_ok_iff.mp stepped
      cases stepped
      rfl
  | _ => cases stepped

/-- A step from a type that is known fails only where the path is malformed, or one of the domains
that it asks for. -/
theorem stepInto_onlyMalformed (known : schema.Knows type) (named : segment ≠ .name "")
    (asked : ∀ domain, schema.Consults domain type (segment :: segments) →
      OnlyMalformed (domainAt domain)) :
    OnlyMalformed (schema.stepInto domainAt path index type segment segments.isEmpty) := by
  obtain ⟨key, keyed⟩ := Segment.exists_entryKey named
  cases type with
  | struct name =>
      cases segment with
      | parameter label => exact OnlyMalformed.malformed path (.parameterForField index name)
      | name field =>
          obtain ⟨struct, found⟩ := Option.isSome_iff_exists.mp known
          rw [stepInto, requireStruct_eq_ok_iff.mpr found, ok_bind]
          split <;> simp
  | catalog entity => simp [stepInto, keyed]
  | listing domain =>
      cases segments with
      | cons following rest => exact OnlyMalformed.malformed path .listingEntryNotLast
      | nil =>
          refine OnlyMalformed.bind (asked domain .listing) fun accessor resolved => ?_
          split <;> simp [keyed]
  | sideTable domain value =>
      refine OnlyMalformed.bind (asked domain .sideTable) fun accessor resolved => ?_
      simp [keyed]
  | _ => exact OnlyMalformed.malformed path (.notNavigable _ index)

end Step

/-! ### Paths -/

section Accepted

variable (rootKnown : schema.Knows schema.rootType)
  (accepted : ∀ declaration ∈ schema.declarations, schema.Accepts declaration.2)

include rootKnown accepted

/-- Where the types of the fields are known, a way from a known type leads to a known type. -/
theorem Leads.knows (leads : schema.Leads type segments steps target) (known : schema.Knows type) :
    schema.Knows target := by
  induction leads with
  | here => exact known
  | field found named onward ih =>
      have declared := mem_declarations (Keyed.mem_of_lookup found)
        (StructDef.mem_of_field? named).1
      exact ih (accepted _ declared).known
  | catalogEntry keyed onward ih =>
      obtain ⟨struct, found, -⟩ := known
      exact ih (Option.isSome_of_eq_some found)
  | listingEntry keyed owner ih =>
      obtain ⟨struct, found, -⟩ := ih rootKnown
      exact Option.isSome_of_eq_some found
  | tableEntry keyed owner onward _ ih => exact ih known

/-- Resolving segments from a type that is known fails only where the path is malformed, or one of
the domains that it asks for. By induction on the segments: what is asked for further on is asked
for at the start. -/
theorem stepsAlong_onlyMalformed {domainAt : Path → Except TreeError Accessor} {path : Path}
    {index : Nat} (known : schema.Knows type) (named : .name "" ∉ segments)
    (domainsLead : ∀ domain accessor, domainAt domain = .ok accessor →
      schema.Leads schema.rootType domain.segments accessor.steps accessor.target)
    (asked : ∀ domain, schema.Consults domain type segments → OnlyMalformed (domainAt domain)) :
    OnlyMalformed (schema.stepsAlong domainAt path index type segments) := by
  induction segments generalizing index type with
  | nil => exact OnlyMalformed.ok ([], type)
  | cons segment rest ih =>
      obtain ⟨first, named⟩ := not_or.mp (mt List.mem_cons.mpr named)
      refine OnlyMalformed.bind (stepInto_onlyMalformed known (Ne.symm first) asked) ?_
      rintro ⟨step, next⟩ stepped
      have leads := leads_of_stepInto domainsLead stepped
      have onward : OnlyMalformed (schema.stepsAlong domainAt path (index + 1) next rest) := by
        refine ih (leads.knows rootKnown accepted known) named fun domain consults => ?_
        -- Something is asked for further on, so the step is not the last, and thus bare.
        have more : rest.isEmpty = false := List.isEmpty_eq_false_iff.mpr consults.ne_nil
        rw [more] at stepped
        exact asked domain (.onward leads (isListing_of_stepInto stepped) consults)
      exact OnlyMalformed.bind onward fun _ _ => OnlyMalformed.ok _

end Accepted

/-- Domains that are being resolved when a path is. None is met twice, and each is the path itself,
or asks for it or for one that leads to it. -/
structure Underway (schema : Schema) (met : List Path) (path : Path) : Prop where
  distinct : met.Nodup
  inside : met ⊆ schema.domains
  leading : ∀ domain ∈ met, Relation.ReflTransGen schema.Asks domain path

namespace Underway

variable {met : List Path} {path domain : Path}

/-- None is when the first path is. -/
theorem start : schema.Underway [] path := ⟨List.nodup_nil, nofun, nofun⟩

/-- There are no more of them than there are domains. -/
theorem length_le (underway : schema.Underway met path) : met.length ≤ schema.domains.length :=
  (underway.distinct.subperm underway.inside).length_le

/-- A domain that the path asks for is one more, unless it leads through itself. -/
theorem cons (underway : schema.Underway met path) (asks : schema.Asks path domain)
    (straight : ¬ schema.LeadsThrough domain domain) :
    schema.Underway (domain :: met) domain where
  distinct := by
    refine List.nodup_cons.mpr ⟨fun again => straight ?_, underway.distinct⟩
    exact Relation.TransGen.tail' (underway.leading domain again) asks
  inside := List.cons_subset.mpr ⟨asks.mem_domains (List.nil_subset _), underway.inside⟩
  leading := List.forall_mem_cons.mpr
    ⟨.refl, fun other member => (underway.leading other member).tail asks⟩

end Underway

/-- Within a depth that is enough for the domains that are not met yet, resolving a path of names
that are not empty fails only where a path is malformed. By induction on the depth. -/
theorem resolveWithin_onlyMalformed (rootKnown : schema.Knows schema.rootType)
    (accepted : ∀ declaration ∈ schema.declarations, schema.Accepts declaration.2)
    (straight : ∀ domain ∈ schema.domains,
      .name "" ∉ domain.segments ∧ ¬ schema.LeadsThrough domain domain)
    {depth : Nat} {met : List Path} {path : Path} (underway : schema.Underway met path)
    (enough : schema.domains.length < depth + met.length) (named : .name "" ∉ path.segments) :
    OnlyMalformed (schema.resolveWithin depth path) := by
  induction depth generalizing met path with
  | zero =>
      have few := underway.length_le
      omega
  | succ depth ih =>
      refine OnlyMalformed.bind ?_ fun _ _ => OnlyMalformed.ok _
      refine stepsAlong_onlyMalformed rootKnown accepted rootKnown named
        (fun _ _ found => (leads_of_resolveWithin found).2) fun domain asks => ?_
      obtain ⟨filled, once⟩ := straight domain (asks.mem_domains (List.nil_subset _))
      -- The depth is one less for the domain, and one more domain is underway.
      refine ih (underway.cons asks once) ?_ filled
      rw [List.length_cons]
      omega

/-- In a schema that was built, if no domain has an empty name or leads through itself, a path
without empty names resolves or is malformed. -/
theorem resolve_onlyMalformed {builder : SchemaBuilder} (built : builder.build = .ok schema)
    (straight : ∀ domain ∈ schema.domains,
      .name "" ∉ domain.segments ∧ ¬ schema.LeadsThrough domain domain)
    {path : Path} (named : .name "" ∉ path.segments) : OnlyMalformed (schema.resolve path) := by
  obtain ⟨-, rootKnown, accepted⟩ := build_eq_ok_iff.mp built
  exact resolveWithin_onlyMalformed rootKnown accepted straight .start (Nat.lt_succ_self _) named

end Schema

end StateTree
