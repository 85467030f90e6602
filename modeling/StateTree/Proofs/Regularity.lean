/-
Module: StateTree.Proofs.Regularity
Purpose: Regular nodes: those whose containers are as they can be built, and whose paths can be
  written. Containers made of the entries of such a node are the ones it has. Updates and
  completion keep a tree regular.
-/
import StateTree.Proofs.Completion
import StateTree.Proofs.PathText

namespace StateTree

/-! ### Containers made of their own entries -/

namespace Keyed

variable {κ α : Type}

/-- Entries in strictly ascending order of their names. -/
def Ascending (entries : List (String × α)) : Prop :=
  entries.Pairwise fun earlier later => earlier.1 < later.1

instance (entries : List (String × α)) : Decidable (Ascending entries) :=
  inferInstanceAs (Decidable (entries.Pairwise fun earlier later => earlier.1 < later.1))

instance [DecidableEq κ] (entries : List (κ × α)) : Decidable (Distinct entries) :=
  inferInstanceAs (Decidable (keys entries).Nodup)

theorem put_of_not_mem [DecidableEq κ] {key : κ} {entries : List (κ × α)}
    (new : key ∉ keys entries) (value : α) : put key value entries = entries ++ [(key, value)] := by
  induction entries with
  | nil => rfl
  | cons entry rest ih =>
      obtain ⟨other, stored⟩ := entry
      obtain ⟨different, absent⟩ := List.ne_and_not_mem_of_not_mem_cons new
      rw [put, if_neg (Ne.symm different), ih absent]
      rfl

/-- Entries that are put in one after the other stay as they are if no key comes twice. -/
theorem putAll_of_distinct [DecidableEq κ] {front entries : List (κ × α)}
    (distinct : Distinct (front ++ entries)) : putAll front entries = front ++ entries := by
  induction entries generalizing front with
  | nil => exact (List.append_nil front).symm
  | cons entry rest ih =>
      obtain ⟨key, value⟩ := entry
      have new : key ∉ keys front := by
        intro member
        unfold Distinct keys at distinct
        rw [List.map_append] at distinct
        exact (List.nodup_append.mp distinct).2.2 key member key (by simp) rfl
      have joined : front ++ (key, value) :: rest = front ++ [(key, value)] ++ rest := by simp
      rw [joined] at distinct ⊢
      have next := ih distinct
      unfold putAll at next ⊢
      rw [List.foldl_cons, put_of_not_mem new]
      exact next

theorem ofPairs_of_distinct [DecidableEq κ] {entries : List (κ × α)} (distinct : Distinct entries) :
    ofPairs entries = entries := by
  have whole : Distinct ([] ++ entries) := distinct
  exact putAll_of_distinct whole

theorem putSorted_of_lt {key : String} {entries : List (String × α)}
    (last : ∀ entry ∈ entries, entry.1 < key) (value : α) :
    putSorted key value entries = entries ++ [(key, value)] := by
  induction entries with
  | nil => rfl
  | cons entry rest ih =>
      obtain ⟨other, stored⟩ := entry
      obtain ⟨first, others⟩ := List.forall_mem_cons.mp last
      have notBefore : ¬ key < other := fun before => String.lt_asymm first before
      have different : key ≠ other := fun same => String.lt_irrefl _ (same ▸ first)
      rw [putSorted, if_neg notBefore, if_neg different, ih others]
      rfl

/-- Entries in the order of their keys are sorted already. -/
theorem sortedOfPairs_of_ascending {entries : List (String × α)} (ascending : Ascending entries) :
    sortedOfPairs entries = entries := by
  suffices every : ∀ front, Ascending (front ++ entries) →
      entries.foldl (fun map pair => putSorted pair.1 pair.2 map) front = front ++ entries from
    every [] ascending
  intro front
  clear ascending
  induction entries generalizing front with
  | nil => exact fun _ => (List.append_nil front).symm
  | cons entry rest ih =>
      obtain ⟨key, value⟩ := entry
      intro ascending
      have last : ∀ earlier ∈ front, earlier.1 < key := fun earlier member =>
        (List.pairwise_append.mp ascending).2.2 earlier member _ List.mem_cons_self
      have joined : front ++ (key, value) :: rest = front ++ [(key, value)] ++ rest := by simp
      rw [joined] at ascending ⊢
      rw [List.foldl_cons, putSorted_of_lt last]
      exact ih _ ascending

end Keyed

/-- A listing of identifiers of which none comes twice has them as they come. -/
theorem Listing.ofList_of_nodup (domain : Path) {ids : List Identifier} (distinct : ids.Nodup) :
    ofList domain ids = ⟨domain, ids⟩ := by
  suffices every : ∀ front, (front ++ ids).Nodup →
      ids.foldl insert ⟨domain, front⟩ = ⟨domain, front ++ ids⟩ from every [] distinct
  intro front
  clear distinct
  induction ids generalizing front with
  | nil => simp
  | cons id rest ih =>
      intro distinct
      have new : id ∉ front := fun member =>
        (List.nodup_append.mp distinct).2.2 id member id List.mem_cons_self rfl
      have joined : front ++ id :: rest = front ++ [id] ++ rest := by simp
      rw [joined] at distinct ⊢
      rw [List.foldl_cons, insert, if_neg new]
      exact ih _ distinct

theorem Listing.domain_insert (listing : Listing) (id : Identifier) :
    (listing.insert id).domain = listing.domain := by
  unfold insert
  split <;> rfl

/-- No identifier is listed twice, whatever is inserted. -/
theorem Listing.nodup_insert {listing : Listing} (distinct : listing.ids.Nodup)
    (id : Identifier) : (listing.insert id).ids.Nodup := by
  unfold insert
  split
  · exact distinct
  · rename_i new
    refine List.nodup_append.mpr ⟨distinct, List.nodup_singleton _, ?_⟩
    intro other member added only same
    exact new (List.mem_singleton.mp only ▸ same ▸ member)

/-! ### Regular nodes -/

/-- A node whose containers are as they can be built, and whose paths can be written. -/
inductive Node.Regular : Node → Prop where
  | bool (value : Bool) : Regular (.bool value)
  | int (value : Int64) : Regular (.int value)
  | str (text : String) : Regular (.str text)
  | id (own : Identifier) : Regular (.id own)
  | ref {target : Path} (writable : target.Writable) : Regular (.ref target)
  | struct {fields : Fields Node} (ascending : Keyed.Ascending fields.entries)
      (below : ∀ entry ∈ fields.entries, Regular entry.2) : Regular (.struct fields)
  | catalog {entities : Catalog Node} (distinct : Keyed.Distinct entities.entries)
      (below : ∀ entry ∈ entities.entries, Regular entry.2) : Regular (.catalog entities)
  | listing {ids : Listing} (writable : ids.domain.Writable) (distinct : ids.ids.Nodup) :
      Regular (.listing ids)
  | sideTable {table : SideTable Node} (writable : table.domain.Writable)
      (distinct : Keyed.Distinct table.entries)
      (below : ∀ entry ∈ table.entries, Regular entry.2) : Regular (.sideTable table)

/-! ### Changes -/

namespace Keyed

variable {κ α : Type}

/-- Whatever is put among sorted entries, they stay in the order of their keys. -/
theorem ascending_putSorted {entries : List (String × α)} (ascending : Ascending entries)
    (key : String) (value : α) : Ascending (putSorted key value entries) := by
  induction entries with
  | nil => exact List.pairwise_singleton _ _
  | cons entry rest ih =>
      obtain ⟨other, stored⟩ := entry
      obtain ⟨first, others⟩ := List.pairwise_cons.mp ascending
      unfold putSorted
      split
      · rename_i before
        refine List.pairwise_cons.mpr ⟨?_, ascending⟩
        rw [List.forall_mem_cons]
        exact ⟨before, fun entry member => String.lt_trans before (first entry member)⟩
      · rename_i notBefore
        split
        · rename_i same
          subst same
          exact List.pairwise_cons.mpr ⟨first, others⟩
        · rename_i different
          have after : other < key := by
            apply Decidable.byContradiction
            intro notAfter
            exact different (String.le_antisymm (String.not_lt.mp notAfter)
              (String.not_lt.mp notBefore))
          refine List.pairwise_cons.mpr ⟨?_, ih others⟩
          intro entry member
          have there : entry.1 ∈ keys (putSorted key value rest) := List.mem_map_of_mem member
          rcases mem_keys_putSorted.mp there with same | before
          · exact same ▸ after
          · obtain ⟨earlier, held, same⟩ := List.mem_map.mp before
            exact same ▸ first earlier held

theorem mem_of_mem_putSorted {key : String} {value : α} {entries : List (String × α)}
    {entry : String × α} (member : entry ∈ putSorted key value entries) :
    entry = (key, value) ∨ entry ∈ entries := by
  induction entries with
  | nil => simpa [putSorted] using member
  | cons first rest ih =>
      obtain ⟨other, stored⟩ := first
      unfold putSorted at member
      split at member
      · exact List.mem_cons.mp member
      · split at member
        · rcases List.mem_cons.mp member with here | later
          · exact Or.inl here
          · exact Or.inr (List.mem_cons_of_mem _ later)
        · rcases List.mem_cons.mp member with here | later
          · exact Or.inr (here ▸ List.mem_cons_self)
          · exact (ih later).imp_right (List.mem_cons_of_mem _)

theorem ascending_drop {entries : List (String × α)} (ascending : Ascending entries)
    (key : String) : Ascending (drop key entries) :=
  List.Pairwise.filter _ ascending

theorem keys_put_of_mem [DecidableEq κ] {key : κ} {entries : List (κ × α)}
    (there : key ∈ keys entries) (value : α) : keys (put key value entries) = keys entries := by
  induction entries with
  | nil => cases there
  | cons entry rest ih =>
      obtain ⟨other, stored⟩ := entry
      by_cases same : other = key
      · simp [put, keys, same]
      · have later : key ∈ keys rest := (List.mem_cons.mp there).resolve_left (Ne.symm same)
        have kept := ih later
        unfold keys at kept ⊢
        simp [put, same, kept]

/-- Whatever is put among entries, no key comes twice. -/
theorem distinct_put [DecidableEq κ] {entries : List (κ × α)} (distinct : Distinct entries)
    (key : κ) (value : α) : Distinct (put key value entries) := by
  unfold Distinct at distinct ⊢
  by_cases there : key ∈ keys entries
  · rwa [keys_put_of_mem there]
  · rw [put_of_not_mem there, keys, List.map_append]
    refine List.nodup_append.mpr ⟨distinct, List.nodup_singleton _, ?_⟩
    intro other member added only same
    rw [List.map_singleton, List.mem_singleton] at only
    rw [same, only] at member
    exact there member

theorem distinct_drop [DecidableEq κ] {entries : List (κ × α)} (distinct : Distinct entries)
    (key : κ) : Distinct (drop key entries) :=
  List.Nodup.sublist (List.Sublist.map _ List.filter_sublist) distinct

end Keyed

namespace Node

/-- What is regular may be stored in a field of a regular struct, and likewise in a catalog and in a
side table. -/
theorem regular_insertField {fields : Fields Node} (regular : (struct fields).Regular)
    {value : Node} (stored : value.Regular) (name : String) :
    (struct (fields.insert name value)).Regular := by
  cases regular with
  | struct ascending below =>
      apply Regular.struct (Keyed.ascending_putSorted ascending name value)
      intro entry member
      rcases Keyed.mem_of_mem_putSorted member with rfl | there
      · exact stored
      · exact below entry there

theorem regular_insertEntity {entities : Catalog Node} (regular : (catalog entities).Regular)
    {value : Node} (stored : value.Regular) (id : Identifier) :
    (catalog (entities.insert id value)).Regular := by
  cases regular with
  | catalog distinct below =>
      apply Regular.catalog (Keyed.distinct_put distinct id value)
      intro entry member
      rcases Keyed.mem_of_mem_put member with rfl | there
      · exact stored
      · exact below entry there

theorem regular_insertValue {table : SideTable Node} (regular : (sideTable table).Regular)
    {value : Node} (stored : value.Regular) (id : Identifier) :
    (sideTable (table.insert id value)).Regular := by
  cases regular with
  | sideTable writable distinct below =>
      have kept : (table.insert id value).domain.Writable := writable
      apply Regular.sideTable kept (Keyed.distinct_put distinct id value)
      intro entry member
      rcases Keyed.mem_of_mem_put member with rfl | there
      · exact stored
      · exact below entry there

/-- A change leaves a regular tree regular when what it stores is regular. -/
theorem regular_of_changes {steps : List Step} {node after : Node} {change : Option Node}
    (changes : Changes steps node change after) (regular : node.Regular)
    (stored : ∀ value, change = some value → value.Regular) : after.Regular := by
  induction changes with
  | replaced => exact stored _ rfl
  | fieldStored => exact regular_insertField regular (stored _ rfl) _
  | fieldErased held =>
      cases regular with
      | struct ascending below =>
          exact .struct (Keyed.ascending_drop ascending _) fun entry member =>
            below entry (Keyed.mem_of_mem_drop member)
  | belowField more held onward ih =>
      cases regular with
      | struct ascending below =>
          have current := below _ (Keyed.mem_of_lookup held)
          exact regular_insertField (.struct ascending below) (ih current stored) _
  | entityStored => exact regular_insertEntity regular (stored _ rfl) _
  | entityErased =>
      cases regular with
      | catalog distinct below =>
          exact .catalog (Keyed.distinct_drop distinct _) fun entry member =>
            below entry (Keyed.mem_of_mem_drop member)
  | belowEntity more held onward ih =>
      cases regular with
      | catalog distinct below =>
          have current := below _ (Keyed.mem_of_lookup held)
          exact regular_insertEntity (.catalog distinct below) (ih current stored) _
  | @listed id domain inner rest listing value =>
      cases regular with
      | listing writable distinct =>
          refine .listing ?_ (Listing.nodup_insert distinct id)
          rwa [Listing.domain_insert]
  | unlisted =>
      cases regular with
      | listing writable distinct => exact .listing writable (distinct.filter _)
  | valueStored => exact regular_insertValue regular (stored _ rfl) _
  | valueErased =>
      cases regular with
      | sideTable writable distinct below =>
          exact .sideTable writable (Keyed.distinct_drop distinct _) fun entry member =>
            below entry (Keyed.mem_of_mem_drop member)
  | belowValue more held onward ih =>
      cases regular with
      | sideTable writable distinct below =>
          have current := below _ (Keyed.mem_of_lookup held)
          exact regular_insertValue (.sideTable writable distinct below) (ih current stored) _

end Node

/-- An operation that stores a regular value leaves a regular tree regular. -/
theorem Operation.regular_apply {operation : Operation} {schema : Schema} {root after : Node}
    (stores : ∀ value, operation.value? = some value → value.Regular) (regular : root.Regular)
    (applied : operation.apply schema root = .ok (some after)) : after.Regular := by
  obtain ⟨accessor, resolved, checked, changes⟩ := changes_of_apply applied
  exact Node.regular_of_changes changes regular stores

/-! ### Completion -/

namespace Schema

variable {schema : Schema}

/-- Every default is regular. -/
def DefaultsRegular (schema : Schema) : Prop :=
  ∀ entry ∈ schema.types, ∀ field ∈ entry.2.fields, ∀ value, field.presence = .polyfill value →
    value.Regular

/-- A completion of a regular node is regular. -/
def KeepsRegular (completion : Completion) : Prop :=
  ∀ type after, completion type = some after → after.Regular

/-- Declared fields that are missing get regular values, and those that are there are completed to
regular ones. -/
theorem regular_completeDeclared {again : Node → Completion}
    {completions : List (String × Completion)} {declared : List FieldDef} {fields : Fields Node}
    {changed : List String}
    (keeps : ∀ node : Node, node.Regular → KeepsRegular (again node))
    (held : ∀ name completion, completions.lookup name = some completion → KeepsRegular completion)
    (defaults : ∀ field ∈ declared, ∀ value, field.presence = .polyfill value → value.Regular)
    (regular : (Node.struct fields).Regular) :
    (Node.struct (completeDeclared again completions declared fields changed).1).Regular := by
  induction declared generalizing fields changed with
  | nil => exact regular
  | cons field rest ih =>
      obtain ⟨first, others⟩ := List.forall_mem_cons.mp defaults
      unfold completeDeclared
      dsimp only
      split
      · rename_i value found
        apply ih others
        apply Node.regular_insertField regular
        cases here : fields.get? field.name with
        | none =>
            cases presence : field.presence with
            | polyfill default =>
                rw [here, presence] at found
                cases found
                exact first _ presence
            | required => simp [here, presence] at found
            | optional => simp [here, presence] at found
        | some current =>
            rw [here] at found
            dsimp only at found
            split at found
            · cases regular with
              | struct ascending below =>
                  exact keeps current (below _ (Keyed.mem_of_lookup here)) _ _ found
            · obtain ⟨completion, there, found⟩ := Option.bind_eq_some_iff.mp found
              exact held _ completion there _ _ found
      · exact ih others regular

theorem KeepsRegular.getD {completion : Completion} (keeps : KeepsRegular completion)
    {node : Node} (regular : node.Regular) (type : FieldType) :
    ((completion type).getD node).Regular := by
  cases result : completion type with
  | none => exact regular
  | some after => exact keeps type after result

/-- Entries that are completed keep their keys apart, and are regular. -/
theorem regular_completeEntries {again : Node → Completion} {entries : List (Identifier × Node)}
    {type : FieldType} {completed : List (Identifier × Node)}
    (keeps : ∀ entry ∈ entries, KeepsRegular (schema.complete again entry.2))
    (distinct : Keyed.Distinct entries) (below : ∀ entry ∈ entries, entry.2.Regular)
    (some : completeEntries schema again entries type = some completed) :
    Keyed.Distinct completed ∧ ∀ entry ∈ completed, entry.2.Regular := by
  rw [completeEntries_eq_some some]
  constructor
  · unfold Keyed.Distinct Keyed.keys at distinct ⊢
    rwa [List.map_map]
  · intro entry member
    obtain ⟨earlier, there, rfl⟩ := List.mem_map.mp member
    exact (keeps earlier there).getD (below earlier there) type

/-- One round of completion keeps a node regular, whichever type it is completed for. -/
theorem regular_complete (defaults : schema.DefaultsRegular) {again : Node → Completion}
    (keeps : ∀ node : Node, node.Regular → KeepsRegular (again node)) {node : Node}
    (regular : node.Regular) : KeepsRegular (schema.complete again node) := by
  intro type after some
  induction node using Node.induct generalizing type after with
  | leaf node primitive => cases node <;> simp_all [Schema.complete, Node.isPrimitive]
  | listing ids => simp [Schema.complete] at some
  | struct fields ih =>
      cases regular with
      | struct ascending below =>
          cases type with
          | struct name =>
              cases found : schema.struct? name with
              | none => simp [Schema.complete, found] at some
              | some struct =>
                  rw [complete_struct_eq_some found some]
                  refine regular_completeDeclared keeps ?_ ?_ (.struct ascending below)
                  · intro name completion there
                    rw [lookup_fieldCompletions] at there
                    obtain ⟨value, held, rfl⟩ := Option.map_eq_some_iff.mp there
                    have member := Keyed.mem_of_lookup held
                    exact ih (name, value) member (below _ member)
                  · exact defaults (name, struct) (Keyed.mem_of_lookup found)
          | _ => simp [Schema.complete] at some
  | catalog entities ih =>
      cases regular with
      | catalog distinct below =>
          cases type with
          | catalog entity =>
              obtain ⟨entries⟩ := entities
              obtain ⟨more, result, rfl⟩ := Option.map_eq_some_iff.mp some
              have kept := regular_completeEntries (fun entry member => ih entry member
                (below entry member)) distinct below result
              exact .catalog kept.1 kept.2
          | _ => simp [Schema.complete] at some
  | sideTable table ih =>
      cases regular with
      | sideTable writable distinct below =>
          cases type with
          | sideTable domain value =>
              obtain ⟨found, entries⟩ := table
              obtain ⟨more, result, rfl⟩ := Option.map_eq_some_iff.mp some
              have kept := regular_completeEntries (fun entry member => ih entry member
                (below entry member)) distinct below result
              exact .sideTable writable kept.1 kept.2
          | _ => simp [Schema.complete] at some

theorem regular_completeWithin (defaults : schema.DefaultsRegular) (rounds : Nat) {node : Node}
    (regular : node.Regular) : KeepsRegular (schema.completeWithin rounds node) := by
  induction rounds generalizing node with
  | zero =>
      refine regular_complete defaults ?_ regular
      intro node regular type after none
      cases none
  | succ rounds ih => exact regular_complete defaults (fun node => ih) regular

/-- A regular tree is regular when it is completed from defaults that are regular. -/
theorem regular_polyfill (defaults : schema.DefaultsRegular) {root : Node}
    (regular : root.Regular) : (schema.polyfill root).Regular := by
  unfold polyfill
  cases result : schema.completeWithin schema.declarations.length root schema.rootType with
  | none => exact regular
  | some completed => exact regular_completeWithin defaults _ regular _ _ result

end Schema

end StateTree
