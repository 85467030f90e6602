/-
Module: StateTree.Proofs.Mirroring
Purpose: A hook that mirrors its scope. It keeps what it reads at each location that it is called
  for, and forgets the locations at which it reads absence. From its introduction on, between any
  two items, it has exactly the instances of the scope that the tree has, with their values: a
  change that touches an instance calls the hook for it, and one that does not leaves it as it was.
-/
import Mathlib.Data.List.Induction
import StateTree.Proofs.Scopes
import StateTree.Proofs.Serialization
import StateTree.Proofs.Validity
import StateTree.Site.Reference

namespace StateTree

variable {κ : Type}

/-- What a callback reads at a location, through the reference that its hook was registered with,
from the root of its call: a value, or that nothing is there. A reading that fails shows nothing. -/
def Reference.seen (template : Reference) (path : Path) (root : Node) : Option (Option Node) :=
  match template.boundBy path with
  | .error _ => none
  | .ok reference => (orAbsent (reference.asNode.valueAt root)).toOption

/-- What a hook keeps of the locations that it was called for. -/
abbrev Mirror := Path → Option Node

/-- A mirror after one more call. -/
def Mirror.record (template : Reference) (mirror : Mirror) (call : HookCall κ) : Mirror :=
  match template.seen call.path call.root with
  | some value => fun path => if path = call.path then value else mirror path
  | none => mirror

/-- The calls of a hook among others. -/
def Hook.own (hook : Hook κ) (calls : List (HookCall κ)) : List (HookCall κ) :=
  calls.filter fun call => call.hook.sequence == hook.sequence

/-- What a hook that mirrors its scope has kept after all that was done. -/
def Hook.mirrored (hook : Hook κ) (template : Reference) (journal : List (Happening κ)) : Mirror :=
  (hook.own (journal.filterMap Happening.call?)).foldl (Mirror.record template) fun _ => none

/-- A tree has a value at an instance of a scope. -/
def Schema.HasAt (schema : Schema) (scope : Path) (root : Node) (path : Path) (value : Node) :
    Prop :=
  path.matchesPattern scope = true ∧
    ∃ accessor, schema.resolve path = .ok accessor ∧ accessor.get root = .ok value

/-- A path is an instance of a scope whose target type is given, and leads there by steps. -/
structure Schema.Instance (schema : Schema) (scope path : Path) (target : FieldType)
    (own : List Step) : Prop where
  suits : path.matchesPattern scope = true
  named : ∀ segment ∈ path.segments, segment.isParameter = false
  plain : Step.ArePlain own
  led : schema.Leads schema.rootType path.segments own target

namespace Schema

variable {schema : Schema} {scope path : Path} {steps own : List Step} {target : FieldType}
  {root value : Node}

/-! ### Instances and what a tree has there -/

/-- An instance is read without domains. -/
theorem Instance.get_eq (one : schema.Instance scope path target own) (root : Node) :
    (⟨path, own, target⟩ : Accessor).get root = readSteps root path own root := by
  simp [Accessor.get, Path.requireBound, Path.isParameterized_eq_false_iff.mpr one.named]

/-- A tree has what stands at the end of the steps. -/
theorem Instance.hasAt_iff (one : schema.Instance scope path target own) :
    schema.HasAt scope root path value ↔ root.descendant? own = some value := by
  have reads : readSteps root path own root = .ok value ↔ root.descendant? own = some value :=
    readSteps_eq_ok_iff one.plain
  rw [← reads, ← one.get_eq]
  constructor
  · rintro ⟨-, accessor, resolved, read⟩
    cases resolved.symm.trans (one.led.resolve_eq one.plain)
    exact read
  · exact fun read => ⟨one.suits, _, one.led.resolve_eq one.plain, read⟩

section Plain

variable (leads : schema.Leads schema.rootType scope.segments steps target)
  (plain : Step.ArePlain steps)

include leads plain

/-- Where a tree has something at a path that matches the scope, the path is an instance. -/
theorem instance_of_hasAt (has : schema.HasAt scope root path value) :
    ∃ own, schema.Instance scope path target own := by
  obtain ⟨suits, accessor, resolved, read⟩ := has
  have led := leads_of_resolve resolved
  obtain rfl := path_of_resolve resolved
  obtain ⟨others, same⟩ := leads.instance plain suits led
  obtain ⟨⟨⟩, bound, -⟩ := bind_eq_ok_iff.mp read
  have named := Path.isParameterized_eq_false_iff.mp (requireBound_eq_ok_iff.mp bound)
  exact ⟨_, suits, named, others, same ▸ led⟩

/-- What is enumerated is an instance. -/
theorem instance_of_enumerated
    (member : path ∈ (⟨scope, steps, target⟩ : Accessor).enumerate root) :
    ∃ own, schema.Instance scope path target own := by
  obtain ⟨segments, own, split, suits, named, led⟩ := leads.of_mem_locations plain member
  obtain rfl : segments = path.segments := by simpa [Path.root] using split.symm
  exact ⟨own, suits, named, (leads.instance plain suits led).1, led⟩

/-- What a tree has is enumerated. -/
theorem enumerated_of_hasAt (has : schema.HasAt scope root path value) :
    path ∈ (⟨scope, steps, target⟩ : Accessor).enumerate root := by
  obtain ⟨own, one⟩ := instance_of_hasAt leads plain has
  simpa [Accessor.enumerate, Path.root] using
    leads.mem_locations plain one.suits one.led (one.hasAt_iff.mp has) Path.root

end Plain

/-! ### Across a change -/

section Applied

variable {update : Update} {before after : Node}
  (applied : update.operation.apply schema before = .ok (some after))
  (one : schema.Instance scope path target own)

include applied one

/-- An instance that does not overlap the target of an update has the same value after it. -/
theorem Instance.descendant?_of_apart (apart : path.overlaps update.target = false) :
    after.descendant? own = before.descendant? own := by
  obtain ⟨accessor, resolved, checked, changes⟩ := Operation.changes_of_apply applied
  have led := leads_of_resolve resolved
  have free := checked.suits.1
  rw [path_of_resolve resolved, Path.isParameterized_eq_false_iff] at free
  rw [Path.overlaps, Bool.or_eq_false_iff, Path.isPrefixOf, Path.isPrefixOf] at apart
  refine one.led.descendant?_of_apart led changes one.named free ?_ ?_
  · rw [← List.isPrefixOf_iff_prefix, ← Update.target, apart.1]
    exact Bool.false_ne_true
  · rw [← List.isPrefixOf_iff_prefix, ← Update.target, apart.2]
    exact Bool.false_ne_true

/-- At an instance that overlaps the target something is found after the update, or nothing is
there. -/
theorem Instance.found_or_absent (overlap : path.overlaps update.target = true) :
    (∃ found, readSteps after path own after = .ok found) ∨
      readSteps after path own after = .error (.nonexistent path) := by
  obtain ⟨accessor, resolved, checked, changes⟩ := Operation.changes_of_apply applied
  refine one.led.found_or_absent one.plain one.named (leads_of_resolve resolved) changes ?_ ?_
    after path
  · exact fun value stored => (checked.suits.2.1 value stored).1
  · rw [Path.overlaps, Bool.or_eq_true, Path.isPrefixOf, Path.isPrefixOf] at overlap
    exact overlap.imp List.isPrefixOf_iff_prefix.mp List.isPrefixOf_iff_prefix.mp

end Applied

end Schema

/-! ### What a callback sees -/

namespace Reference

variable {schema : Schema} {site : Nat} {reading : Reading} {scope path : Path}
  {template : Reference} {own : List Step}

/-- At an instance of its scope a callback reads what is there. -/
theorem seen_of_instance (formed : new site schema reading scope = .ok template)
    (plain : Step.ArePlain template.accessor.steps)
    (one : schema.Instance scope path template.accessor.target own) (root : Node) :
    template.seen path root =
      match readSteps root path own root with
      | .ok node => some (some node)
      | .error (.nonexistent _) => some none
      | .error _ => none := by
  have resolved := (new_cases formed).1
  obtain ⟨ids, fills⟩ := (Schema.leads_of_resolve resolved).exists_fills_instance plain one.suits
    one.named one.led
  have reference := boundBy_eq_ok formed fills (one.led.resolve_eq one.plain) rfl
  simp only [seen, reference, asNode, valueAt, one.get_eq]
  cases readSteps root path own root with
  | ok node => rfl
  | error fault => cases fault <;> rfl

end Reference

/-! ### Calls of one hook -/

namespace Mirror

variable (template : Reference) {root : Node}

/-- After calls with one root, a mirror has what that root shows at the locations called for. -/
theorem foldl_record {calls : List (HookCall κ)} (all : ∀ call ∈ calls, call.root = root)
    (mirror : Mirror) (path : Path) :
    calls.foldl (record template) mirror path =
      if path ∈ calls.map HookCall.path then (template.seen path root).getD (mirror path)
      else mirror path := by
  induction calls generalizing mirror with
  | nil => rfl
  | cons call rest ih =>
      obtain ⟨same, all⟩ := List.forall_mem_cons.mp all
      have first : record template mirror call path =
          if path = call.path then (template.seen path root).getD (mirror path)
          else mirror path := by
        unfold record
        rw [same]
        cases seen : template.seen call.path root with
        | none =>
            by_cases here : path = call.path
            · simp [here, seen]
            · simp [here]
        | some value =>
            by_cases here : path = call.path
            · simp [here, seen]
            · simp [here]
      rw [List.foldl_cons, ih all, first, List.map_cons]
      by_cases here : path = call.path
      · simp only [here, List.mem_cons, true_or, if_true]
        cases template.seen call.path root <;> simp
      · simp [here]

end Mirror

namespace Hook

variable {hook : Hook κ} {hooks : List (Hook κ)} {locations : Hook κ → List Path} {root : Node}

/-- The calls of a hook are its own, and nobody else's. -/
theorem own_map (other : Hook κ) (paths : List Path) :
    hook.own (paths.map fun path => ⟨other, path, root⟩) =
      if other.sequence = hook.sequence then paths.map fun path => ⟨other, path, root⟩ else [] := by
  unfold own
  split <;> simp_all

/-- A hook that is not among those that are called has no calls. -/
theorem own_eq_nil (known : ∀ other ∈ hooks, other.sequence = hook.sequence → other = hook)
    (absent : hook ∉ hooks) :
    hook.own (hooks.flatMap fun other =>
      (locations other).map fun path => ⟨other, path, root⟩) = [] := by
  induction hooks with
  | nil => rfl
  | cons first rest ih =>
      obtain ⟨here, known⟩ := List.forall_mem_cons.mp known
      rw [List.mem_cons, not_or] at absent
      rw [List.flatMap_cons, own, List.filter_append]
      change hook.own _ ++ hook.own _ = []
      rw [own_map, if_neg fun same => absent.1 (here same).symm, ih known absent.2]
      rfl

/-- Of the calls of all hooks those of one are the calls for its own locations. -/
theorem paths_own (distinct : hooks.Nodup)
    (known : ∀ other ∈ hooks, other.sequence = hook.sequence → other = hook)
    (member : hook ∈ hooks) :
    (hook.own (hooks.flatMap fun other =>
      (locations other).map fun path => ⟨other, path, root⟩)).map HookCall.path =
        locations hook := by
  induction hooks with
  | nil => cases member
  | cons first rest ih =>
      obtain ⟨here, known⟩ := List.forall_mem_cons.mp known
      obtain ⟨apart, distinct⟩ := List.nodup_cons.mp distinct
      have split : hook.own ((first :: rest).flatMap fun other =>
          (locations other).map fun path => ⟨other, path, root⟩) =
          hook.own ((locations first).map fun path => ⟨first, path, root⟩) ++
            hook.own (rest.flatMap fun other =>
              (locations other).map fun path => ⟨other, path, root⟩) := by
        rw [List.flatMap_cons, own, List.filter_append]
        rfl
      rw [split, own_map]
      by_cases same : first.sequence = hook.sequence
      · obtain rfl := here same
        rw [if_pos rfl, own_eq_nil known apart]
        simp [Function.comp_def]
      · have behind : hook ∈ rest := by
          rcases List.mem_cons.mp member with rfl | behind
          · exact absurd rfl same
          · exact behind
        rw [if_neg same]
        exact ih distinct known behind

end Hook

/-- The elements of a list are among its first occurrences. -/
theorem mem_firstOccurrences {α : Type} [DecidableEq α] {element : α} {list : List α} :
    element ∈ firstOccurrences list ↔ element ∈ list := by
  induction list with
  | nil => rfl
  | cons first rest ih =>
      rw [firstOccurrences, List.mem_cons, List.mem_cons, List.mem_filter, ih]
      by_cases same : element = first <;> simp [same]

/-- No first occurrence comes again. -/
theorem nodup_firstOccurrences {α : Type} [DecidableEq α] (list : List α) :
    (firstOccurrences list).Nodup := by
  induction list with
  | nil => exact List.nodup_nil
  | cons first rest ih =>
      refine List.nodup_cons.mpr ⟨?_, ih.filter _⟩
      simp

namespace Hook

/-- A hook is called for the locations of its scope, before and after a change, that overlap it. -/
theorem mem_affected {hook : Hook κ} {before after : Node} {changed path : Path} :
    path ∈ hook.affected before after changed ↔
      (path ∈ hook.scope.enumerate after ∨ path ∈ hook.scope.enumerate before) ∧
        path.overlaps changed = true := by
  rw [affected, mem_firstOccurrences, List.mem_filter, List.mem_append]

/-! ### The mirror over a run -/

/-- What a hook needs to know of the items that were processed. -/
structure Follows (hook : Hook κ) (entries : List (Entry κ)) : Prop where
  distinct : ∀ entry ∈ entries, entry.hooks.Nodup
  known : ∀ entry ∈ entries, ∀ other ∈ entry.hooks, other.sequence = hook.sequence → other = hook
  grown : entries.Pairwise fun entry later => entry.hooks ⊆ later.hooks
  own : ∀ entry ∈ entries, ∀ other, entry.item = .introduce other → other ∈ entry.hooks

/-- A mirror is empty before its hook is in the registry, right about all that it has, and complete
from the introduction on. -/
structure Mirrors (hook : Hook κ) (schema : Schema) (scope : Path) (entries : List (Entry κ))
    (root : Node) (mirror : Mirror) : Prop where
  empty : (∀ entry ∈ entries, hook ∉ entry.hooks) → mirror = fun _ => none
  right : ∀ path value, mirror path = some value → schema.HasAt scope root path value
  full : (∃ entry ∈ entries, entry.item = .introduce hook) → ∀ path value,
    schema.HasAt scope root path value → mirror path = some value

theorem mirrored_append (hook : Hook κ) (template : Reference) (journal more : List (Happening κ)) :
    hook.mirrored template (journal ++ more) =
      (hook.own (more.filterMap Happening.call?)).foldl (Mirror.record template)
        (hook.mirrored template journal) := by
  simp [mirrored, Hook.own, List.filterMap_append]

/-- One more item adds the calls that it causes. -/
theorem mirrored_chronicle (hook : Hook κ) (template : Reference) (schema : Schema) (origin : Node)
    (entries : List (Entry κ)) (entry : Entry κ) :
    hook.mirrored template (chronicle schema origin (entries ++ [entry])) =
      (hook.own (entry.item.effect schema entry.hooks (rootAfter schema origin entries)).2).foldl
        (Mirror.record template) (hook.mirrored template (chronicle schema origin entries)) := by
  have calls (item : WorkItem κ) (root : Node) (made : List (HookCall κ)) :
      (Happening.processed item root :: made.map .called ++ [Happening.completed]).filterMap
        Happening.call? = made := by
    simp [Happening.call?, List.filterMap_cons, List.filterMap_map, Function.comp_def]
  rw [chronicle_append, mirrored_append]
  simp only [chronicle]
  rw [calls]

section Step

variable {schema : Schema} {site : Nat} {reading : Reading} {scope path : Path}
  {template : Reference} {hook : Hook κ} {value : Node}
  (formed : Reference.new site schema reading scope = .ok template)
  (plain : Step.ArePlain template.accessor.steps) (ranges : hook.scope = template.accessor)

include formed plain ranges

/-- What the scope enumerates are its instances. -/
theorem instance_of_enumerated {root : Node} (member : path ∈ hook.scope.enumerate root) :
    ∃ own, schema.Instance scope path template.accessor.target own := by
  have leads := Schema.leads_of_resolve (Reference.new_cases formed).1
  rw [ranges] at member
  exact Schema.instance_of_enumerated leads plain member

theorem enumerated_of_hasAt {root : Node} (has : schema.HasAt scope root path value) :
    path ∈ hook.scope.enumerate root := by
  have leads := Schema.leads_of_resolve (Reference.new_cases formed).1
  have listed := Schema.enumerated_of_hasAt leads plain has
  rw [ranges]
  exact listed

/-- Where a hook is called for an update, it sees exactly what the tree has now. -/
theorem seen_of_affected {update : Update} {before after : Node}
    (applied : update.operation.apply schema before = .ok (some after))
    (called : path ∈ hook.affected before after update.target) :
    ∃ shown, template.seen path after = some shown ∧
      ∀ value, shown = some value ↔ schema.HasAt scope after path value := by
  obtain ⟨listed, overlap⟩ := mem_affected.mp called
  obtain ⟨own, one⟩ := listed.elim (instance_of_enumerated formed plain ranges)
    (instance_of_enumerated formed plain ranges)
  have seen := Reference.seen_of_instance formed plain one after
  have reads (value : Node) :
      schema.HasAt scope after path value ↔ readSteps after path own after = .ok value :=
    one.hasAt_iff.trans (readSteps_eq_ok_iff one.plain).symm
  rcases one.found_or_absent applied overlap with ⟨found, read⟩ | absent
  · refine ⟨some found, by rw [seen, read], fun value => ?_⟩
    rw [reads, read, Option.some.injEq, Except.ok.injEq]
  · refine ⟨none, by rw [seen, absent], fun value => ?_⟩
    rw [reads, absent]
    simp

/-- Where a hook is not called for an update, the tree has what it had. -/
theorem hasAt_of_unaffected {update : Update} {before after : Node}
    (applied : update.operation.apply schema before = .ok (some after))
    (spared : path ∉ hook.affected before after update.target) (value : Node) :
    schema.HasAt scope after path value ↔ schema.HasAt scope before path value := by
  have same (listed : path ∈ hook.scope.enumerate after ∨ path ∈ hook.scope.enumerate before) :
      schema.HasAt scope after path value ↔ schema.HasAt scope before path value := by
    obtain ⟨own, one⟩ := listed.elim (instance_of_enumerated formed plain ranges)
      (instance_of_enumerated formed plain ranges)
    have apart : path.overlaps update.target = false := by
      cases overlap : path.overlaps update.target with
      | false => rfl
      | true => exact absurd (mem_affected.mpr ⟨listed, overlap⟩) spared
    rw [one.hasAt_iff, one.hasAt_iff, one.descendant?_of_apart applied apart]
  constructor
  · exact fun has => (same (Or.inl (enumerated_of_hasAt formed plain ranges has))).mp has
  · exact fun has => (same (Or.inr (enumerated_of_hasAt formed plain ranges has))).mpr has

/-- Where a hook is introduced, it sees what the tree has there. -/
theorem seen_of_hasAt {root : Node} (has : schema.HasAt scope root path value) :
    template.seen path root = some (some value) := by
  obtain ⟨own, one⟩ := instance_of_enumerated formed plain ranges
    (enumerated_of_hasAt formed plain ranges has)
  rw [Reference.seen_of_instance formed plain one,
    (readSteps_eq_ok_iff one.plain).mpr (one.hasAt_iff.mp has)]

/-- What an introduced hook sees, the tree has. -/
theorem hasAt_of_seen {root : Node} (listed : path ∈ hook.scope.enumerate root)
    (seen : template.seen path root = some (some value)) :
    schema.HasAt scope root path value := by
  obtain ⟨own, one⟩ := instance_of_enumerated formed plain ranges listed
  rw [Reference.seen_of_instance formed plain one] at seen
  have reads : readSteps root path own root = .ok value ↔ root.descendant? own = some value :=
    readSteps_eq_ok_iff one.plain
  refine one.hasAt_iff.mpr (reads.mp ?_)
  cases read : readSteps root path own root with
  | ok found =>
      rw [read] at seen
      cases seen
      rfl
  | error fault =>
      rw [read] at seen
      cases fault <;> cases seen

/-- An update keeps a mirror right and, if it was, complete. -/
theorem mirror_of_commit {update : Update} {before after : Node}
    (applied : update.operation.apply schema before = .ok (some after)) (mirror : Mirror)
    {calls : List (HookCall κ)} (all : ∀ call ∈ calls, call.root = after)
    (paths : calls.map HookCall.path = hook.affected before after update.target) :
    ((∀ path value, mirror path = some value → schema.HasAt scope before path value) →
      ∀ path value, calls.foldl (Mirror.record template) mirror path = some value →
        schema.HasAt scope after path value) ∧
    ((∀ path value, schema.HasAt scope before path value → mirror path = some value) →
      ∀ path value, schema.HasAt scope after path value →
        calls.foldl (Mirror.record template) mirror path = some value) := by
  have now (path : Path) : calls.foldl (Mirror.record template) mirror path =
      if path ∈ hook.affected before after update.target then
        (template.seen path after).getD (mirror path)
      else mirror path := by
    rw [Mirror.foldl_record template all, paths]
  constructor
  · intro right path value kept
    rw [now] at kept
    split at kept
    · rename_i called
      obtain ⟨shown, seen, agrees⟩ := seen_of_affected formed plain ranges applied called
      rw [seen, Option.getD_some] at kept
      exact (agrees value).mp kept
    · rename_i spared
      exact (hasAt_of_unaffected formed plain ranges applied spared value).mpr
        (right path value kept)
  · intro full path value has
    rw [now]
    split
    · rename_i called
      obtain ⟨shown, seen, agrees⟩ := seen_of_affected formed plain ranges applied called
      rw [seen, Option.getD_some]
      exact (agrees value).mpr has
    · rename_i spared
      exact full path value ((hasAt_of_unaffected formed plain ranges applied spared value).mp has)

/-- An introduction keeps a mirror right and makes it complete. -/
theorem mirror_of_introduction {root : Node} (mirror : Mirror) {calls : List (HookCall κ)}
    (all : ∀ call ∈ calls, call.root = root)
    (paths : calls.map HookCall.path = hook.existing root) :
    ((∀ path value, mirror path = some value → schema.HasAt scope root path value) →
      ∀ path value, calls.foldl (Mirror.record template) mirror path = some value →
        schema.HasAt scope root path value) ∧
    ∀ path value, schema.HasAt scope root path value →
      calls.foldl (Mirror.record template) mirror path = some value := by
  have now (path : Path) : calls.foldl (Mirror.record template) mirror path =
      if path ∈ hook.existing root then (template.seen path root).getD (mirror path)
      else mirror path := by
    rw [Mirror.foldl_record template all, paths]
  constructor
  · intro right path value kept
    rw [now] at kept
    split at kept
    · rename_i listed
      cases seen : template.seen path root with
      | none =>
          rw [seen] at kept
          exact right path value kept
      | some shown =>
          rw [seen, Option.getD_some] at kept
          exact hasAt_of_seen formed plain ranges listed (seen.trans (congrArg some kept))
    · exact right path value kept
  · intro path value has
    have listed : path ∈ hook.existing root := enumerated_of_hasAt formed plain ranges has
    rw [now, if_pos listed, seen_of_hasAt formed plain ranges has]
    rfl

section Entry

variable {origin root after : Node} {entries : List (Entry κ)} {entry : Entry κ} {mirror : Mirror}
  (follows : hook.Follows (entries ++ [entry]))
  (mirrors : hook.Mirrors schema scope entries root mirror)

omit formed plain ranges in
theorem introduced_before (other : entry.item ≠ .introduce hook)
    (introduced : ∃ one ∈ entries ++ [entry], one.item = .introduce hook) :
    ∃ one ∈ entries, one.item = .introduce hook := by
  obtain ⟨one, member, same⟩ := introduced
  rcases List.mem_append.mp member with member | member
  · exact ⟨one, member, same⟩
  · rw [List.mem_singleton.mp member] at same
    exact absurd same other

omit formed plain ranges in
include mirrors in
/-- An item that changes nothing and does not call the hook leaves the mirror as good as it was. -/
theorem Mirrors.skip (other : entry.item ≠ .introduce hook) :
    hook.Mirrors schema scope (entries ++ [entry]) root mirror where
  empty := fun absent => mirrors.empty fun one member => absent one (List.mem_append_left _ member)
  right := mirrors.right
  full := fun introduced => mirrors.full (introduced_before other introduced)

omit formed plain ranges in
include follows mirrors in
/-- An item that was processed before the hook was in the registry finds an empty mirror. -/
theorem Mirrors.unheard (absent : hook ∉ entry.hooks) :
    hook.Mirrors schema scope (entries ++ [entry]) after mirror := by
  have before : ∀ one ∈ entries, hook ∉ one.hooks := fun one member held =>
    absent ((List.pairwise_append.mp follows.grown).2.2 one member entry (by simp) held)
  have nothing := mirrors.empty before
  refine ⟨fun _ => nothing, fun path value kept => ?_, fun introduced => ?_⟩
  · rw [nothing] at kept
    cases kept
  · obtain ⟨one, member, same⟩ := introduced
    have held := follows.own one member hook same
    rcases List.mem_append.mp member with member | member
    · exact absurd held (before one member)
    · rw [List.mem_singleton.mp member] at held
      exact absurd held absent

end Entry

/-- The mirror is right about all that it has, and from the introduction on it has everything. By
induction on the items that were processed. -/
theorem mirrors_chronicle (origin : Node) {entries : List (Entry κ)}
    (follows : hook.Follows entries) :
    hook.Mirrors schema scope entries (rootAfter schema origin entries)
      (hook.mirrored template (chronicle schema origin entries)) := by
  induction entries using List.reverseRecOn with
  | nil => exact ⟨fun _ => rfl, nofun, nofun⟩
  | append_singleton entries entry ih =>
      have last : entry ∈ entries ++ [entry] := by simp
      have mirrors := ih
        ⟨fun one member => follows.distinct one (List.mem_append_left _ member),
          fun one member => follows.known one (List.mem_append_left _ member),
          (List.pairwise_append.mp follows.grown).1,
          fun one member => follows.own one (List.mem_append_left _ member)⟩
      rw [mirrored_chronicle, rootAfter_append]
      generalize rootAfter schema origin entries = before at mirrors
      generalize hook.mirrored template (chronicle schema origin entries) = mirror at mirrors
      have all : ∀ call ∈ hook.own (entry.item.effect schema entry.hooks before).2,
          call.root = (entry.item.effect schema entry.hooks before).1 :=
        fun call member => Workshop.root_of_effect (List.mem_filter.mp member).1
      obtain ⟨item, hooks⟩ := entry
      cases item with
      | apply update =>
          rcases applied : update.operation.apply schema before with error | _ | after
          · simp only [WorkItem.effect, applied]
            exact mirrors.skip fun introduces => by cases introduces
          · simp only [WorkItem.effect, applied]
            exact mirrors.skip fun introduces => by cases introduces
          · simp only [WorkItem.effect, applied] at all ⊢
            by_cases member : hook ∈ hooks
            · have paths : (hook.own (hooks.flatMap fun other =>
                  (other.affected before after update.target).map fun path =>
                    ⟨other, path, after⟩)).map HookCall.path =
                  hook.affected before after update.target :=
                paths_own (follows.distinct _ last) (follows.known _ last) member
              obtain ⟨right, full⟩ := mirror_of_commit formed plain ranges applied mirror all paths
              refine ⟨fun absent => absurd member (absent _ last), right mirrors.right,
                fun introduced => full (mirrors.full (introduced_before (by simp) introduced))⟩
            · rw [own_eq_nil (follows.known _ last) member]
              exact mirrors.unheard follows member
      | introduce other =>
          have member := follows.own _ last other rfl
          simp only [WorkItem.effect] at all ⊢
          rw [own_map] at all ⊢
          by_cases same : other.sequence = hook.sequence
          · obtain rfl := follows.known _ last other member same
            rw [if_pos rfl] at all ⊢
            have paths : ((other.existing before).map fun path =>
                (⟨other, path, before⟩ : HookCall κ)).map HookCall.path =
                other.existing before := by
              simp [Function.comp_def]
            obtain ⟨right, full⟩ := mirror_of_introduction formed plain ranges mirror all paths
            exact ⟨fun absent => absurd member (absent _ last), right mirrors.right,
              fun _ => full⟩
          · rw [if_neg same]
            refine mirrors.skip fun introduces => same ?_
            cases introduces
            rfl

end Step

end Hook

namespace Workshop

variable {shop : Workshop κ} {hook : Hook κ}

/-- What a hook of a site at work needs to know of the items. -/
theorem Enrolled.follows (enrolled : shop.Enrolled) (member : hook ∈ shop.drawn) :
    hook.Follows shop.entries := by
  have distinct : (shop.drawn.map Hook.sequence).Nodup := by
    rw [enrolled.sequences]
    exact List.nodup_range
  refine ⟨fun entry there => ?_, fun entry there other held same => ?_, enrolled.grown,
    enrolled.own⟩
  · refine (enrolled.ordered entry there).imp fun before => ?_
    rintro rfl
    rw [Hook.precedes_iff] at before
    omega
  · have drawn := enrolled.all.mem_iff.mp (List.mem_append_left _ (enrolled.kept entry there held))
    exact List.inj_on_of_nodup_map distinct drawn member same

/-- The calls of a hook for an update are for different paths that overlap the target. -/
theorem Enrolled.own_calls (enrolled : shop.Enrolled) (member : hook ∈ shop.drawn)
    {entry : Entry κ} (there : entry ∈ shop.entries) {update : Update}
    (item : entry.item = .apply update) (schema : Schema) (before : Node) :
    ((hook.own (entry.item.effect schema entry.hooks before).2).map HookCall.path).Nodup ∧
      ∀ call ∈ hook.own (entry.item.effect schema entry.hooks before).2,
        call.path.isPrefixOf update.target = true ∨ update.target.isPrefixOf call.path = true := by
  have follows := enrolled.follows member
  rcases applied : update.operation.apply schema before with error | _ | after
  · simp [item, WorkItem.effect, applied, Hook.own]
  · simp [item, WorkItem.effect, applied, Hook.own]
  · simp only [item, WorkItem.effect, applied]
    by_cases registered : hook ∈ entry.hooks
    · have paths : (hook.own (entry.hooks.flatMap fun other =>
          (other.affected before after update.target).map fun path =>
            ⟨other, path, after⟩)).map HookCall.path =
          hook.affected before after update.target :=
        Hook.paths_own (follows.distinct entry there) (follows.known entry there) registered
      refine ⟨?_, fun call made => ?_⟩
      · rw [paths]
        exact nodup_firstOccurrences _
      · have called : call.path ∈ _ := List.mem_map_of_mem made
        rw [paths] at called
        simpa [Path.overlaps] using (Hook.mem_affected.mp called).2
    · rw [Hook.own_eq_nil (follows.known entry there) registered]
      simp

/-- A hook whose scope passes only through fields and entries of catalogs and that keeps what it
reads, never goes stale, whatever it is registered among and whatever is submitted before and after.
Once its introduction has been processed and while no call is due, its mirror has exactly the
instances of the scope that the current root has, with their values. And for one update it is called
at most once for a path, and only for paths that lead to the target or from it. -/
theorem mirrors_scope {schema : Schema} {site : Nat} {reading : Reading} {scope : Path}
    {template : Reference} (formed : Reference.new site schema reading scope = .ok template)
    (plain : Step.ArePlain template.accessor.steps) (callback : HookCall κ → List Update)
    (name : String) (identity : Identifier) (events : List (WorkshopEvent κ)) :
    let shop := (new name identity schema).run callback events
    shop.journal ++ shop.outstanding = chronicle schema shop.origin shop.entries ∧
      ∀ hook ∈ shop.drawn, hook.scope = template.accessor →
        ((∃ entry ∈ shop.entries, entry.item = .introduce hook) → shop.due = [] →
          ∀ path value, hook.mirrored template shop.journal path = some value ↔
            path.matchesPattern scope = true ∧ ∃ accessor,
              schema.resolve path = .ok accessor ∧
                accessor.get shop.workplace.site.root = .ok value) ∧
        ∀ front entry rest update, shop.entries = front ++ entry :: rest →
          entry.item = .apply update →
            let calls := hook.own
              (entry.item.effect schema entry.hooks (rootAfter schema shop.origin front)).2
            (calls.map HookCall.path).Nodup ∧ ∀ call ∈ calls,
              call.path.isPrefixOf update.target = true ∨
                update.target.isPrefixOf call.path = true := by
  intro shop
  have orderly : shop.Orderly := (orderly_new name identity schema).run callback events
  have enrolled : shop.Enrolled :=
    (enrolled_new name identity schema).run (orderly_new name identity schema) callback events
  have same : shop.workplace.site.schema = schema :=
    (Continues.run callback (new name identity schema) events).schema
  have journal := orderly.journal
  have root := orderly.root
  rw [same] at journal root
  refine ⟨journal, fun hook member ranges => ⟨fun introduced settled path value => ?_, ?_⟩⟩
  · obtain ⟨-, right, full⟩ := Hook.mirrors_chronicle formed plain ranges shop.origin
      (enrolled.follows member)
    have told : hook.mirrored template (chronicle schema shop.origin shop.entries) =
        hook.mirrored template shop.journal := by
      rw [← journal, Hook.mirrored_append]
      have rest : shop.outstanding.filterMap Happening.call? = [] := by
        unfold outstanding
        split <;> simp [settled, Happening.call?]
      rw [rest]
      rfl
    rw [← told, root]
    exact ⟨right path value, full introduced path value⟩
  · intro front entry rest update split item
    exact enrolled.own_calls member (by simp [split]) item schema _

end Workshop

/-! ### In the sample -/

namespace Sample

/-- Every target of the sample. -/
def everyTarget : Accessor :=
  ⟨⟨[.name "targets", .parameter "target"]⟩, [.field "targets" false, .catalogEntry none],
    .struct "Target"⟩

/-- A hook on every target. -/
def targetHook : Hook Unit := ⟨"mirror", 0, 0, everyTarget, ()⟩

/-- The hook is registered after the start and introduced. -/
def introduction : List (WorkshopEvent Unit) :=
  [.start tree, .draw "mirror" everyTarget 0 (), .place 0, .present 0, .work, .work, .work]

/-- The target `b` is added. -/
def addition : Update :=
  ⟨.replacement (.ofNames ["targets", "b"]) (.struct ⟨[("id", .id b)]⟩), .empty⟩

/-- The target `a` is removed. -/
def removal : Update := ⟨.deletion (.ofNames ["targets", "a"]), .empty⟩

/-- After the introduction one target is added, and the other one is removed. -/
def exchange : List (WorkshopEvent Unit) :=
  introduction ++
    [.submit addition, .work, .work, .work, .submit removal, .work, .work, .work]

/-- The site of the sample after some steps, with a hook that submits nothing. -/
def shopAfter (events : List (WorkshopEvent Unit)) : Workshop Unit :=
  (Workshop.new "sample" a schema).run (fun _ => []) events

/-- What the hook has of the targets `a` and `b` then. -/
def targetsKept (events : List (WorkshopEvent Unit)) : Option Node × Option Node :=
  let kept := targetHook.mirrored ⟨0, schema, everyTarget, View.node.reading⟩
    (shopAfter events).journal
  (kept (.ofNames ["targets", "a"]), kept (.ofNames ["targets", "b"]))

/-- After its introduction the hook has the one target of the sample. It gets the other one when
that is added and loses the first when that is removed, so that it has the targets of the sample
then. -/
theorem targets_mirrored :
    targetsKept introduction = (some (.struct ⟨[("id", .id a)]⟩), none) ∧
      targetsKept exchange = (none, some (.struct ⟨[("id", .id b)]⟩)) ∧
      let shop := shopAfter exchange
      Reference.new 0 schema View.node.reading everyTarget.path =
          .ok ⟨0, schema, everyTarget, View.node.reading⟩ ∧
        Step.ArePlain everyTarget.steps ∧ targetHook ∈ shop.drawn ∧
        (∃ entry ∈ shop.entries, entry.item = .introduce targetHook) ∧
        shop.due = [] ∧
        ∀ path value,
          targetHook.mirrored ⟨0, schema, everyTarget, View.node.reading⟩ shop.journal path =
              some value ↔
            path.matchesPattern everyTarget.path = true ∧ ∃ accessor,
              schema.resolve path = .ok accessor ∧
                accessor.get shop.workplace.site.root = .ok value := by
  have formed : Reference.new 0 schema View.node.reading everyTarget.path =
      .ok ⟨0, schema, everyTarget, View.node.reading⟩ := rfl
  have plain : Step.ArePlain everyTarget.steps := by
    simp [Step.ArePlain, everyTarget, Step.isPlain]
  have drawn : targetHook ∈ (shopAfter exchange).drawn := List.mem_singleton.mpr rfl
  have there : ∃ entry ∈ (shopAfter exchange).entries, entry.item = .introduce targetHook :=
    ⟨⟨.introduce targetHook, [targetHook]⟩, List.mem_cons_self, rfl⟩
  refine ⟨by decide +kernel, by decide +kernel, formed, plain, drawn, there, rfl, ?_⟩
  exact ((Workshop.mirrors_scope formed plain (fun _ => []) "sample" a exchange).2 targetHook
    drawn rfl).1 there rfl

end Sample

end StateTree
