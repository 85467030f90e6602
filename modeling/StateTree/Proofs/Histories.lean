/-
Module: StateTree.Proofs.Histories
Purpose: What a container holds, told by the changes that it went through. A key is there when the
  last change of it stored a value, with that value, and the keys stand in the order in which they
  came in, each since it was last absent. What a container says of a catalog it refers into, and
  whether two containers are equal, is told by the same keys and values.
-/
import StateTree.Proofs.Polyfilling
import StateTree.Proofs.StoredTrees

namespace StateTree

/-! ### Histories -/

/-- A change of a container. -/
inductive Edit (κ α : Type) where
  | store (key : κ) (value : α)
  | remove (key : κ)

namespace Edit

variable {κ α : Type}

/-- The key that a change is about. -/
def key : Edit κ α → κ
  | .store key _ | .remove key => key

/-- The changes of a container that was made of pairs and changed afterwards. -/
def history (pairs : List (κ × α)) (edits : List (Edit κ α)) : List (Edit κ α) :=
  pairs.map (fun pair => .store pair.1 pair.2) ++ edits

/-- The last change of a key has stored a value. -/
def LeavesStored (history : List (Edit κ α)) (key : κ) (value : α) : Prop :=
  ∃ earlier later, history = earlier ++ .store key value :: later ∧ ∀ edit ∈ later, edit.key ≠ key

/-- A key came in with the change of a number: it was absent before, and was not removed since. -/
def EntersAt (history : List (Edit κ α)) (key : κ) (moment : Nat) : Prop :=
  ∃ earlier value later, history = earlier ++ .store key value :: later ∧ earlier.length = moment ∧
    (∀ held, ¬ LeavesStored earlier key held) ∧ .remove key ∉ later

variable {before : List (Edit κ α)} {edit last : Edit κ α} {other : κ} {held : α}

/-- A change among those of a history is the last one or an earlier one. -/
theorem concat_eq_iff {earlier later : List (Edit κ α)} :
    before ++ [last] = earlier ++ edit :: later ↔
      (later = [] ∧ earlier = before ∧ edit = last) ∨
        ∃ between, later = between ++ [last] ∧ before = earlier ++ edit :: between := by
  constructor
  · intro same
    rcases List.eq_nil_or_concat later with rfl | ⟨between, final, rfl⟩
    · obtain ⟨rfl, one⟩ := List.append_inj' same rfl
      exact Or.inl ⟨rfl, rfl, (List.singleton_inj.mp one).symm⟩
    · rw [List.concat_eq_append, ← List.cons_append, ← List.append_assoc] at same
      obtain ⟨rfl, one⟩ := List.append_inj' same rfl
      rw [List.singleton_inj.mp one]
      exact Or.inr ⟨between, List.concat_eq_append, rfl⟩
  · rintro (⟨rfl, rfl, rfl⟩ | ⟨between, rfl, rfl⟩)
    · rfl
    · simp

theorem leavesStored_concat_iff :
    LeavesStored (before ++ [last]) other held ↔
      last = .store other held ∨ last.key ≠ other ∧ LeavesStored before other held := by
  constructor
  · rintro ⟨earlier, later, same, apart⟩
    rcases concat_eq_iff.mp same with ⟨-, -, same⟩ | ⟨between, rfl, rfl⟩
    · exact Or.inl same.symm
    · obtain ⟨apart, different⟩ := List.forall_mem_append.mp apart
      exact Or.inr ⟨different last List.mem_cons_self, earlier, between, rfl, apart⟩
  · rintro (rfl | ⟨different, earlier, later, rfl, apart⟩)
    · exact ⟨before, [], rfl, nofun⟩
    · refine ⟨earlier, later ++ [last], by simp, ?_⟩
      exact List.forall_mem_append.mpr ⟨apart, List.forall_mem_singleton.mpr different⟩

theorem entersAt_concat_iff {moment : Nat} :
    EntersAt (before ++ [last]) other moment ↔
      (EntersAt before other moment ∧ last ≠ .remove other) ∨
        (∃ value, last = .store other value) ∧ moment = before.length ∧
          ∀ held, ¬ LeavesStored before other held := by
  constructor
  · rintro ⟨earlier, value, later, same, rfl, absent, kept⟩
    rcases concat_eq_iff.mp same with ⟨-, rfl, rfl⟩ | ⟨between, rfl, rfl⟩
    · exact Or.inr ⟨⟨value, rfl⟩, rfl, absent⟩
    · rw [List.mem_append, List.mem_singleton, not_or] at kept
      exact Or.inl ⟨⟨earlier, value, between, rfl, rfl, absent, kept.1⟩, Ne.symm kept.2⟩
  · rintro (⟨⟨earlier, value, later, rfl, rfl, absent, kept⟩, different⟩ |
      ⟨⟨value, rfl⟩, rfl, absent⟩)
    · refine ⟨earlier, value, later ++ [last], by simp, rfl, absent, ?_⟩
      rw [List.mem_append, List.mem_singleton, not_or]
      exact ⟨kept, Ne.symm different⟩
    · exact ⟨before, value, [], rfl, rfl, absent, List.not_mem_nil⟩

theorem EntersAt.lt_length {moment : Nat} (enters : EntersAt before other moment) :
    moment < before.length := by
  obtain ⟨earlier, value, later, rfl, rfl, -⟩ := enters
  simp

variable {keys : List κ} {key : κ}

/-- Keys are those that came in, and stand in the order in which they did. -/
def InOrder (history : List (Edit κ α)) (keys : List κ) : Prop :=
  ∃ moments : κ → Nat,
    (∀ key moment, EntersAt history key moment ↔ key ∈ keys ∧ moment = moments key) ∧
      keys.Pairwise fun key other => moments key < moments other

/-- Where something is stored under a key that is there, no key comes in. -/
theorem InOrder.again (ordered : InOrder before keys) (there : ∃ held, LeavesStored before key held)
    (value : α) : InOrder (before ++ [.store key value]) keys := by
  obtain ⟨moments, enters, sorted⟩ := ordered
  refine ⟨moments, fun other moment => ?_, sorted⟩
  rw [← enters, entersAt_concat_iff]
  constructor
  · rintro (⟨entered, -⟩ | ⟨⟨_, same⟩, -, absent⟩)
    · exact entered
    · cases same
      exact absurd there (not_exists.mpr absent)
  · exact fun entered => Or.inl ⟨entered, nofun⟩

/-- A key that was absent comes in behind the others. -/
theorem InOrder.concat [DecidableEq κ] (ordered : InOrder before keys) (new : key ∉ keys)
    (absent : ∀ held, ¬ LeavesStored before key held) (value : α) :
    InOrder (before ++ [.store key value]) (keys ++ [key]) := by
  obtain ⟨moments, enters, sorted⟩ := ordered
  let further := Function.update moments key before.length
  have last : further key = before.length := Function.update_self ..
  have others {other : κ} (member : other ∈ keys) : further other = moments other := by
    have different : other ≠ key := fun same => new (same ▸ member)
    exact Function.update_of_ne different ..
  refine ⟨further, fun other moment => ?_, ?_⟩
  · rw [entersAt_concat_iff, enters, List.mem_append, List.mem_singleton]
    constructor
    · rintro (⟨⟨member, rfl⟩, -⟩ | ⟨⟨_, same⟩, rfl, -⟩)
      · exact ⟨Or.inl member, (others member).symm⟩
      · cases same
        exact ⟨Or.inr rfl, last.symm⟩
    · rintro ⟨member | rfl, rfl⟩
      · exact Or.inl ⟨⟨member, others member⟩, nofun⟩
      · exact Or.inr ⟨⟨value, rfl⟩, last, absent⟩
  · rw [List.pairwise_append]
    refine ⟨?_, List.pairwise_singleton .., fun other member final only => ?_⟩
    · refine sorted.imp_of_mem fun one two earlier => ?_
      rwa [others one, others two]
    · rw [List.mem_singleton.mp only, others member, last]
      exact ((enters other _).mpr ⟨member, rfl⟩).lt_length

/-- Where a key is removed, the others stay in order. -/
theorem InOrder.filter [DecidableEq κ] (ordered : InOrder before keys) (key : κ) :
    InOrder (before ++ [.remove key]) (keys.filter (· != key)) := by
  obtain ⟨moments, enters, sorted⟩ := ordered
  refine ⟨moments, fun other moment => ?_, sorted.filter _⟩
  rw [entersAt_concat_iff, enters, List.mem_filter, bne_iff_ne]
  constructor
  · rintro (⟨⟨member, rfl⟩, different⟩ | ⟨⟨_, same⟩, -⟩)
    · exact ⟨⟨member, fun same => different (same ▸ rfl)⟩, rfl⟩
    · cases same
  · rintro ⟨⟨member, different⟩, rfl⟩
    exact Or.inl ⟨⟨member, rfl⟩, fun same => different (Edit.remove.inj same).symm⟩

end Edit

/-! ### Entries with a history -/

namespace Keyed

open Edit

variable {κ α : Type} [DecidableEq κ]

/-- Entries after a change. -/
def edit (entries : List (κ × α)) : Edit κ α → List (κ × α)
  | .store key value => put key value entries
  | .remove key => drop key entries

/-- Entries are what a history tells: no key stands at two places, a key has the value that its last
change has stored, and the keys stand in the order in which they came in. -/
structure Reflects (history : List (Edit κ α)) (entries : List (κ × α)) : Prop where
  distinct : Distinct entries
  held : ∀ key value, entries.lookup key = some value ↔ LeavesStored history key value
  ordered : InOrder history (keys entries)

theorem reflects_nil : Reflects ([] : List (Edit κ α)) [] := by
  refine ⟨.nil, fun key value => ?_, fun _ => 0, fun key moment => ?_, .nil⟩
  · simp [LeavesStored]
  · simp [EntersAt, keys]

/-- The keys after one is removed. -/
theorem keys_drop (key : κ) (entries : List (κ × α)) :
    keys (drop key entries) = (keys entries).filter (· != key) := by
  rw [keys, keys, List.filter_map]
  rfl

namespace Reflects

variable {history : List (Edit κ α)} {entries : List (κ × α)} (reflects : Reflects history entries)

include reflects

/-- A key is there when its last change has stored a value. -/
theorem mem_keys_iff {key : κ} : key ∈ keys entries ↔ ∃ value, LeavesStored history key value := by
  rw [← isSome_lookup_iff, Option.isSome_iff_exists]
  exact exists_congr fun value => reflects.held key value

theorem store (key : κ) (value : α) :
    Reflects (history ++ [.store key value]) (put key value entries) := by
  refine ⟨distinct_put reflects.distinct key value, fun other held => ?_, ?_⟩
  · rw [leavesStored_concat_iff, ← reflects.held]
    by_cases same : other = key
    · subst same
      simp [Edit.key]
    · rw [lookup_put_of_ne same]
      simp [Edit.key, Ne.symm same]
  · by_cases there : key ∈ keys entries
    · rw [keys_put_of_mem there]
      exact reflects.ordered.again (reflects.mem_keys_iff.mp there) value
    · have absent := not_exists.mp (mt reflects.mem_keys_iff.mpr there)
      rw [put_of_not_mem there, keys, List.map_append]
      exact reflects.ordered.concat there absent value

theorem remove (key : κ) : Reflects (history ++ [.remove key]) (drop key entries) := by
  refine ⟨distinct_drop reflects.distinct key, fun other held => ?_, ?_⟩
  · rw [leavesStored_concat_iff, ← reflects.held]
    by_cases same : other = key
    · subst same
      simp [Edit.key]
    · rw [lookup_drop_of_ne same]
      simp [Edit.key, Ne.symm same]
  · rw [keys_drop]
    exact reflects.ordered.filter key

/-- Entries go on to be what the history tells. -/
theorem edit (change : Edit κ α) : Reflects (history ++ [change]) (Keyed.edit entries change) := by
  cases change with
  | store key value => exact reflects.store key value
  | remove key => exact reflects.remove key

/-- Entries that were changed are what the whole history tells. -/
theorem run (edits : List (Edit κ α)) :
    Reflects (history ++ edits) (edits.foldl Keyed.edit entries) := by
  induction edits generalizing history entries with
  | nil => rwa [List.append_nil]
  | cons change rest ih =>
      rw [List.append_cons]
      exact ih (reflects.edit change)

end Reflects

/-- The entries made of pairs, and changed afterwards, are what the history tells. -/
theorem reflects_foldl (pairs : List (κ × α)) (edits : List (Edit κ α)) :
    Reflects (history pairs edits) (edits.foldl edit (ofPairs pairs)) := by
  have made : ofPairs pairs =
      (pairs.map fun pair => (.store pair.1 pair.2 : Edit κ α)).foldl edit [] := by
    rw [List.foldl_map]
    rfl
  rw [made, ← List.foldl_append]
  exact reflects_nil.run _

/-- Removing a key that is absent changes nothing. -/
theorem drop_of_absent {key : κ} {entries : List (κ × α)} (absent : contains key entries = false) :
    drop key entries = entries := by
  refine List.filter_eq_self.mpr fun entry member => ?_
  rw [bne_iff_ne]
  rintro rfl
  rw [contains, isSome_lookup_iff.mpr (List.mem_map_of_mem member)] at absent
  cases absent

/-- Storing again what is stored changes nothing. -/
theorem put_of_lookup {key : κ} {value : α} {entries : List (κ × α)}
    (stored : entries.lookup key = some value) : put key value entries = entries := by
  induction entries with
  | nil => cases stored
  | cons entry rest ih =>
      obtain ⟨other, held⟩ := entry
      by_cases same : other = key
      · subst same
        cases List.lookup_cons_self.symm.trans stored
        rw [put, if_pos rfl]
      · rw [List.lookup_cons, beq_false_of_ne (Ne.symm same)] at stored
        rw [put, if_neg same, ih stored]

/-- Entries have the same keys in the same order, with values that agree. -/
def Agree (same : α → α → Prop) (entries others : List (κ × α)) : Prop :=
  keys entries = keys others ∧ ∀ key value held,
    entries.lookup key = some value → others.lookup key = some held → same value held

/-- Entries agree when the first ones do, and the others. -/
theorem agree_cons_iff {same : α → α → Prop} {key other : κ} {value held : α}
    {entries others : List (κ × α)} (new : key ∉ keys entries) :
    Agree same ((key, value) :: entries) ((other, held) :: others) ↔
      (key = other ∧ same value held) ∧ Agree same entries others := by
  constructor
  · rintro ⟨sameKeys, agree⟩
    obtain ⟨rfl, onward⟩ := List.cons.inj sameKeys
    refine ⟨⟨rfl, agree key value held List.lookup_cons_self List.lookup_cons_self⟩, onward, ?_⟩
    intro later mine theirs found there
    have different : later ≠ key := fun same => new (same ▸ mem_keys_of_lookup found)
    refine agree later mine theirs ?_ ?_ <;> rwa [List.lookup_cons, beq_false_of_ne different]
  · rintro ⟨⟨rfl, first⟩, sameKeys, agree⟩
    refine ⟨congrArg (key :: ·) sameKeys, fun later mine theirs found there => ?_⟩
    by_cases same : later = key
    · subst same
      cases List.lookup_cons_self.symm.trans found
      cases List.lookup_cons_self.symm.trans there
      exact first
    · rw [List.lookup_cons, beq_false_of_ne same] at found there
      exact agree later mine theirs found there

/-- Entries whose keys are distinct agree when they agree one by one. -/
theorem forall₂_iff_agree {same : α → α → Prop} {entries others : List (κ × α)}
    (distinct : Distinct entries) :
    List.Forall₂ (fun entry other => entry.1 = other.1 ∧ same entry.2 other.2) entries others ↔
      Agree same entries others := by
  induction entries generalizing others with
  | nil =>
      cases others with
      | nil => simp [Agree]
      | cons other rest => simp [Agree, keys]
  | cons entry rest ih =>
      cases others with
      | nil => simp [Agree, keys]
      | cons other others =>
          obtain ⟨new, distinct⟩ := List.nodup_cons.mp distinct
          rw [List.forall₂_cons, ih distinct, ← agree_cons_iff new]

/-- Entries are equal when they agree on equal values. -/
theorem eq_iff_agree {entries others : List (κ × α)} (distinct : Distinct entries) :
    entries = others ↔ Agree Eq entries others := by
  rw [← forall₂_iff_agree distinct]
  constructor
  · rintro rfl
    exact List.forall₂_same.mpr fun entry _ => ⟨rfl, rfl⟩
  · intro alike
    have equal := alike.imp fun _ _ => Prod.ext_iff.mpr
    rwa [List.forall₂_eq_eq_eq] at equal

/-- Entries compare as equal when they agree on values that do. -/
theorem beq_iff_agree [BEq α] {entries others : List (κ × α)} (distinct : Distinct entries) :
    (entries == others) = true ↔
      Agree (fun value held => (value == held) = true) entries others := by
  rw [← forall₂_iff_agree distinct]
  clear distinct
  induction entries generalizing others with
  | nil => cases others <;> simp
  | cons entry rest ih =>
      cases others with
      | nil => simp
      | cons other others =>
          have first : (entry == other) = (entry.1 == other.1 && entry.2 == other.2) := rfl
          rw [List.forall₂_cons, ← ih, List.cons_beq_cons, first]
          simp

/-- Entries that are counted and then compared, unless they are known to be the same ones, compare
as equal when they agree on values that do or are the same ones. -/
theorem compared_iff_agree [BEq α] {entries others : List (κ × α)} (distinct : Distinct entries)
    (isShared : Bool) (shared : isShared = true → entries = others) :
    (isShared || (entries.length == others.length && entries == others)) = true ↔
      Agree (fun value held => isShared = true ∨ (value == held) = true) entries others := by
  cases isShared with
  | true => simp [Agree, shared rfl]
  | false =>
      have counted (agree : Agree (fun value held => (value == held) = true) entries others) :
          entries.length = others.length := by
        simpa [keys] using congrArg List.length agree.1
      simpa [beq_iff_agree distinct] using counted

end Keyed

/-! ### Containers with a history -/

/-- What is kept of a list are the elements at which something is found, in their order. -/
theorem forall₂_filterMap {α β : Type} {find : α → Option β} {kept : α → Bool}
    (found : ∀ element, (find element).isSome = kept element) (elements : List α) :
    List.Forall₂ (fun value element => find element = some value) (elements.filterMap find)
      (elements.filter kept) := by
  induction elements with
  | nil => exact .nil
  | cons element rest ih =>
      have here := found element
      cases there : find element with
      | none =>
          rw [there] at here
          simpa [there, ← here] using ih
      | some value =>
          rw [there] at here
          simpa [there, ← here] using ih

namespace Catalog

variable {α : Type}

/-- A catalog after a change. -/
def edit (catalog : Catalog α) : Edit Identifier α → Catalog α
  | .store id entity => catalog.insert id entity
  | .remove id => catalog.erase id

/-- A catalog that was made of pairs and changed afterwards. -/
def edited (pairs : List (Identifier × α)) (edits : List (Edit Identifier α)) : Catalog α :=
  edits.foldl edit (ofPairs pairs)

theorem reflects_edited (pairs : List (Identifier × α)) (edits : List (Edit Identifier α)) :
    Keyed.Reflects (Edit.history pairs edits) (edited pairs edits).entries := by
  have changed : (edited pairs edits).entries = edits.foldl Keyed.edit (Keyed.ofPairs pairs) :=
    (List.foldl_hom Catalog.entries fun catalog change => by cases change <;> rfl).symm
  rw [changed]
  exact Keyed.reflects_foldl pairs edits

theorem erase_of_absent {catalog : Catalog α} {id : Identifier}
    (absent : catalog.contains id = false) : catalog.erase id = catalog :=
  congrArg Catalog.mk (Keyed.drop_of_absent absent)

theorem eq_iff_agree {catalog other : Catalog α} (distinct : Keyed.Distinct catalog.entries) :
    catalog = other ↔ Keyed.Agree Eq catalog.entries other.entries := by
  rw [← Keyed.eq_iff_agree distinct]
  cases catalog
  cases other
  simp

/-- Whether an identifier has an entity, told by the identifiers. -/
theorem isSome_get?_iff {catalog : Catalog α} {id : Identifier} :
    (catalog.get? id).isSome = decide (id ∈ catalog.ids) := by
  rw [Bool.eq_iff_iff, decide_eq_true_iff]
  exact Keyed.isSome_lookup_iff

theorem contains_eq_false_iff {catalog : Catalog α} {id : Identifier} :
    catalog.contains id = false ↔ id ∉ catalog.ids := by
  rw [← Bool.not_eq_true, not_iff_not]
  exact Keyed.isSome_lookup_iff

end Catalog

namespace SideTable

variable {α : Type}

/-- A side table after a change. -/
def edit (table : SideTable α) : Edit Identifier α → SideTable α
  | .store key value => table.insert key value
  | .remove key => table.erase key

/-- A side table that was made of pairs and changed afterwards. -/
def edited (domain : Path) (pairs : List (Identifier × α)) (edits : List (Edit Identifier α)) :
    SideTable α :=
  edits.foldl edit (ofPairs domain pairs)

theorem reflects_edited (domain : Path) (pairs : List (Identifier × α))
    (edits : List (Edit Identifier α)) :
    Keyed.Reflects (Edit.history pairs edits) (edited domain pairs edits).entries := by
  have changed : (edited domain pairs edits).entries =
      edits.foldl Keyed.edit (Keyed.ofPairs pairs) :=
    (List.foldl_hom SideTable.entries fun table change => by cases change <;> rfl).symm
  rw [changed]
  exact Keyed.reflects_foldl pairs edits

theorem domain_edited (domain : Path) (pairs : List (Identifier × α))
    (edits : List (Edit Identifier α)) : (edited domain pairs edits).domain = domain :=
  List.foldlRecOn (motive := fun table : SideTable α => table.domain = domain) edits _ rfl
    fun table same change _ => by cases change <;> exact same

theorem erase_of_absent {table : SideTable α} {key : Identifier}
    (absent : table.contains key = false) : table.erase key = table :=
  congrArg (SideTable.mk table.domain) (Keyed.drop_of_absent absent)

theorem eq_iff_agree {table other : SideTable α} (distinct : Keyed.Distinct table.entries) :
    table = other ↔
      table.domain = other.domain ∧ Keyed.Agree Eq table.entries other.entries := by
  rw [← Keyed.eq_iff_agree distinct]
  cases table
  cases other
  simp

theorem equals_iff_agree [BEq α] {table other : SideTable α}
    (distinct : Keyed.Distinct table.entries) :
    table.equals other = true ↔ table.domain = other.domain ∧
      Keyed.Agree (fun value held => (value == held) = true) table.entries other.entries := by
  have alike : (fun value held : α => false = true ∨ (value == held) = true) =
      fun value held => (value == held) = true := by simp
  rw [equals, Bool.and_eq_true, beq_iff_eq, ← alike]
  exact and_congr_right fun _ => Keyed.compared_iff_agree distinct false nofun

/-- The entries whose entity a catalog has, in the order of the table. -/
theorem forall₂_liveEntries {β : Type} (table : SideTable α) (catalog : Catalog β) :
    List.Forall₂ (fun live entry => catalog.get? entry.1 = some live.1 ∧ entry.2 = live.2)
      (table.liveEntries catalog) (table.entries.filter fun entry => entry.1 ∈ catalog.ids) := by
  refine (forall₂_filterMap (fun entry => ?_) table.entries).imp fun live entry found => ?_
  · rw [Option.isSome_map, Catalog.isSome_get?_iff]
  · obtain ⟨entity, owned, rfl⟩ := Option.map_eq_some_iff.mp found
    exact ⟨owned, rfl⟩

theorem isDangling_iff {β : Type} {table : SideTable α} {catalog : Catalog β} {key : Identifier} :
    table.isDangling key catalog = true ↔ key ∈ table.keys ∧ key ∉ catalog.ids := by
  rw [isDangling, Bool.and_eq_true, Bool.not_eq_true', Catalog.contains_eq_false_iff]
  exact and_congr_left fun _ => Keyed.isSome_lookup_iff

end SideTable

namespace Listing

/-- The identifiers of a listing as keys that have no values. -/
def entries (listing : Listing) : List (Identifier × Unit) := listing.ids.map fun id => (id, ())

/-- A listing after a change. -/
def edit (listing : Listing) : Edit Identifier Unit → Listing
  | .store id _ => listing.insert id
  | .remove id => listing.erase id

/-- A listing that was made of identifiers and changed afterwards. -/
def edited (domain : Path) (ids : List Identifier) (edits : List (Edit Identifier Unit)) :
    Listing :=
  edits.foldl edit (ofList domain ids)

theorem keys_entries (listing : Listing) : Keyed.keys listing.entries = listing.ids := by
  simp [Keyed.keys, entries, Function.comp_def]

theorem entries_insert (listing : Listing) (id : Identifier) :
    (listing.insert id).entries = Keyed.put id () listing.entries := by
  unfold insert
  split
  · rename_i listed
    rw [← keys_entries, ← Keyed.isSome_lookup_iff, Option.isSome_iff_exists] at listed
    obtain ⟨⟨⟩, listed⟩ := listed
    exact (Keyed.put_of_lookup listed).symm
  · rename_i new
    rw [← keys_entries] at new
    rw [Keyed.put_of_not_mem new]
    exact List.map_append

theorem entries_erase (listing : Listing) (id : Identifier) :
    (listing.erase id).entries = Keyed.drop id listing.entries := by
  rw [Keyed.drop, entries, entries, List.filter_map]
  rfl

theorem reflects_edited (domain : Path) (ids : List Identifier)
    (edits : List (Edit Identifier Unit)) :
    Keyed.Reflects (Edit.history (ids.map fun id => (id, ())) edits)
      (edited domain ids edits).entries := by
  have made : (ofList domain ids).entries = Keyed.ofPairs (ids.map fun id => (id, ())) := by
    rw [Keyed.ofPairs, Keyed.putAll, List.foldl_map]
    exact (List.foldl_hom entries fun listing id => (entries_insert listing id).symm).symm
  have changed : (edited domain ids edits).entries =
      edits.foldl Keyed.edit (ofList domain ids).entries := by
    refine (List.foldl_hom entries fun listing change => ?_).symm
    cases change with
    | store id value => exact (entries_insert listing id).symm
    | remove id => exact (entries_erase listing id).symm
  rw [changed, made]
  exact Keyed.reflects_foldl _ edits

theorem domain_edited (domain : Path) (ids : List Identifier)
    (edits : List (Edit Identifier Unit)) : (edited domain ids edits).domain = domain := by
  refine List.foldlRecOn (motive := fun listing : Listing => listing.domain = domain) edits _
    (domain_ofList domain ids) fun listing same change _ => ?_
  cases change with
  | store id value => exact (listing.domain_insert id).trans same
  | remove id => exact same

theorem erase_of_absent {listing : Listing} {id : Identifier}
    (absent : listing.contains id = false) : listing.erase id = listing := by
  refine congrArg (Listing.mk listing.domain) (List.filter_eq_self.mpr fun other member => ?_)
  rw [bne_iff_ne]
  rintro rfl
  exact absurd member (of_decide_eq_false absent)

theorem insert_of_listed {listing : Listing} {id : Identifier}
    (listed : listing.contains id = true) : listing.insert id = listing :=
  if_pos (of_decide_eq_true listed)

theorem eq_iff {listing other : Listing} :
    listing = other ↔ listing.domain = other.domain ∧ listing.ids = other.ids := by
  cases listing
  cases other
  simp

theorem equals_iff {listing other : Listing} :
    listing.equals other = true ↔ listing.domain = other.domain ∧ listing.ids = other.ids := by
  simp [equals]

/-- The listed entities that a catalog has, in the order of the listing. -/
theorem forall₂_valuesIn {β : Type} (listing : Listing) (catalog : Catalog β) :
    List.Forall₂ (fun entity id => catalog.get? id = some entity) (listing.valuesIn catalog)
      (listing.ids.filter (· ∈ catalog.ids)) :=
  forall₂_filterMap (fun _ => Catalog.isSome_get?_iff) listing.ids

theorem isDangling_iff {β : Type} {listing : Listing} {catalog : Catalog β} {id : Identifier} :
    listing.isDangling id catalog = true ↔ id ∈ listing.ids ∧ id ∉ catalog.ids := by
  rw [isDangling, Bool.and_eq_true, Bool.not_eq_true', Catalog.contains_eq_false_iff]
  exact and_congr_left fun _ => decide_eq_true_iff

end Listing

/-- Containers are ordered maps, whatever they are made of and whatever is stored and removed
afterwards. A catalog, a side table or a listing holds what its history tells: no key twice, a key
with the value that its last change has stored, and the keys in the order in which they came in.
Removing what is absent and listing what is listed change nothing. Two containers are equal, and
compare as equal, when their domains are the same and their entries agree. And of a catalog that
they refer into, side tables and listings tell in their own order the entries whose entity it has,
and that the others dangle. -/
theorem containers_follow_history {α β : Type} [BEq α] :
    (∀ (pairs : List (Identifier × α)) (edits : List (Edit Identifier α)),
      let catalog := Catalog.edited pairs edits
      Keyed.Reflects (Edit.history pairs edits) catalog.entries ∧
        (∀ id, catalog.contains id = false → catalog.erase id = catalog) ∧
        ∀ (others : List (Identifier × α)) (more : List (Edit Identifier α)),
          let other := Catalog.edited others more
          (catalog = other ↔ Keyed.Agree Eq catalog.entries other.entries) ∧
            ∀ isShared : Bool, (isShared = true → catalog = other) →
              (catalog.equals other isShared = true ↔
                Keyed.Agree (fun value held => isShared = true ∨ (value == held) = true)
                  catalog.entries other.entries)) ∧
    (∀ (domain : Path) (pairs : List (Identifier × α)) (edits : List (Edit Identifier α)),
      let table := SideTable.edited domain pairs edits
      Keyed.Reflects (Edit.history pairs edits) table.entries ∧
        (∀ key, table.contains key = false → table.erase key = table) ∧
        (∀ (elsewhere : Path) (others : List (Identifier × α)) (more : List (Edit Identifier α)),
          let other := SideTable.edited elsewhere others more
          (table = other ↔ domain = elsewhere ∧ Keyed.Agree Eq table.entries other.entries) ∧
            (table.equals other = true ↔ domain = elsewhere ∧
              Keyed.Agree (fun value held => (value == held) = true)
                table.entries other.entries)) ∧
        ∀ catalog : Catalog β,
          List.Forall₂ (fun live entry => catalog.get? entry.1 = some live.1 ∧ entry.2 = live.2)
            (table.liveEntries catalog)
            (table.entries.filter fun entry => entry.1 ∈ catalog.ids) ∧
          ∀ key, table.isDangling key catalog = true ↔ key ∈ table.keys ∧ key ∉ catalog.ids) ∧
    (∀ (domain : Path) (ids : List Identifier) (edits : List (Edit Identifier Unit)),
      let listing := Listing.edited domain ids edits
      Keyed.Reflects (Edit.history (ids.map fun id => (id, ())) edits) listing.entries ∧
        (∀ id, listing.contains id = false → listing.erase id = listing) ∧
        (∀ id, listing.contains id = true → listing.insert id = listing) ∧
        (∀ (elsewhere : Path) (others : List Identifier) (more : List (Edit Identifier Unit)),
          let other := Listing.edited elsewhere others more
          (listing = other ↔ domain = elsewhere ∧ listing.ids = other.ids) ∧
            (listing.equals other = true ↔ domain = elsewhere ∧ listing.ids = other.ids)) ∧
        ∀ catalog : Catalog β,
          List.Forall₂ (fun entity id => catalog.get? id = some entity)
            (listing.valuesIn catalog) (listing.ids.filter (· ∈ catalog.ids)) ∧
          ∀ id, listing.isDangling id catalog = true ↔ id ∈ listing.ids ∧ id ∉ catalog.ids) := by
  refine ⟨fun pairs edits => ?_, fun domain pairs edits => ?_, fun domain ids edits => ?_⟩
  · have reflects := Catalog.reflects_edited pairs edits
    refine ⟨reflects, fun _ => Catalog.erase_of_absent, fun others more => ⟨?_, ?_⟩⟩
    · exact Catalog.eq_iff_agree reflects.distinct
    · exact fun isShared shared =>
        Keyed.compared_iff_agree reflects.distinct isShared fun same =>
          congrArg Catalog.entries (shared same)
  · have reflects := SideTable.reflects_edited domain pairs edits
    refine ⟨reflects, fun _ => SideTable.erase_of_absent, fun elsewhere others more => ⟨?_, ?_⟩,
      fun catalog => ⟨SideTable.forall₂_liveEntries _ catalog, fun _ => SideTable.isDangling_iff⟩⟩
    · rw [SideTable.eq_iff_agree reflects.distinct, SideTable.domain_edited,
        SideTable.domain_edited]
    · rw [SideTable.equals_iff_agree reflects.distinct, SideTable.domain_edited,
        SideTable.domain_edited]
  · refine ⟨Listing.reflects_edited domain ids edits, fun _ => Listing.erase_of_absent,
      fun _ => Listing.insert_of_listed, fun elsewhere others more => ⟨?_, ?_⟩,
      fun catalog => ⟨Listing.forall₂_valuesIn _ catalog, fun _ => Listing.isDangling_iff⟩⟩
    · rw [Listing.eq_iff, Listing.domain_edited, Listing.domain_edited]
    · rw [Listing.equals_iff, Listing.domain_edited, Listing.domain_edited]

/-- A key that is stored under again keeps its place, and loses it when it is removed. -/
example :
    let edits : List (Edit Identifier Nat) :=
      [.store Sample.a 3, .remove Sample.b, .store Sample.b 4]
    (Catalog.edited [(Sample.b, 1), (Sample.a, 2)] edits).entries =
      [(Sample.a, 3), (Sample.b, 4)] := by
  decide

end StateTree
