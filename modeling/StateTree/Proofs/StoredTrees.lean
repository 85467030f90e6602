/-
Module: StateTree.Proofs.StoredTrees
Purpose: Which trees a JSON reader takes. What is read from any value is regular and no deeper than
  the reader may go; so the trees that come back from their own text are the ones that stand for
  some text.
-/
import Mathlib.Data.List.TFAE
import StateTree.Proofs.NodeText

namespace StateTree

/-! ### Containers made of pairs -/

namespace Keyed

variable {κ α : Type}

/-- What storing pairs one after the other leaves was there before or is one of them. -/
theorem mem_of_mem_foldl {store : κ → α → List (κ × α) → List (κ × α)}
    (stored : ∀ {key value entries entry}, entry ∈ store key value entries →
      entry = (key, value) ∨ entry ∈ entries)
    {pairs entries : List (κ × α)} {entry : κ × α}
    (member : entry ∈ pairs.foldl (fun map pair => store pair.1 pair.2 map) entries) :
    entry ∈ entries ∨ entry ∈ pairs := by
  induction pairs generalizing entries with
  | nil => exact Or.inl member
  | cons pair rest ih =>
      rcases ih member with first | later
      · rcases stored first with rfl | earlier
        · exact Or.inr List.mem_cons_self
        · exact Or.inl earlier
      · exact Or.inr (List.mem_cons_of_mem _ later)

/-- What is made of pairs has no other entries than these. -/
theorem mem_of_mem_ofPairs [DecidableEq κ] {pairs : List (κ × α)} {entry : κ × α}
    (member : entry ∈ ofPairs pairs) : entry ∈ pairs :=
  (mem_of_mem_foldl mem_of_mem_put member).resolve_left List.not_mem_nil

theorem mem_of_mem_sortedOfPairs {pairs : List (String × α)} {entry : String × α}
    (member : entry ∈ sortedOfPairs pairs) : entry ∈ pairs :=
  (mem_of_mem_foldl mem_of_mem_putSorted member).resolve_left List.not_mem_nil

/-- What is made of pairs has no key twice. -/
theorem distinct_ofPairs [DecidableEq κ] (pairs : List (κ × α)) : Distinct (ofPairs pairs) :=
  List.foldlRecOn pairs _ List.nodup_nil fun _ distinct pair _ =>
    distinct_put distinct pair.1 pair.2

theorem ascending_sortedOfPairs (pairs : List (String × α)) : Ascending (sortedOfPairs pairs) :=
  List.foldlRecOn pairs _ List.Pairwise.nil fun _ ascending pair _ =>
    ascending_putSorted ascending pair.1 pair.2

end Keyed

namespace Listing

theorem domain_ofList (domain : Path) (ids : List Identifier) :
    (ofList domain ids).domain = domain :=
  List.foldlRecOn (motive := fun listing : Listing => listing.domain = domain) ids _ rfl
    fun listing same id _ => (listing.domain_insert id).trans same

theorem nodup_ofList (domain : Path) (ids : List Identifier) : (ofList domain ids).ids.Nodup :=
  List.foldlRecOn (motive := fun listing : Listing => listing.ids.Nodup) ids _ List.nodup_nil
    fun _ distinct id _ => nodup_insert distinct id

end Listing

namespace Json

/-! ### How deep what is written can be -/

/-- Members are written at most one level deeper than each of them. -/
theorem levels_ofMembers_le {members : List (String × Json)} {depth : Nat}
    (each : ∀ member ∈ members, member.2.levels ≤ depth) :
    (ofMembers members).levels ≤ depth + 1 := by
  rw [ofMembers, levels, Nat.add_le_add_iff_right]
  induction members with
  | nil => exact Nat.zero_le _
  | cons first rest ih =>
      obtain ⟨here, others⟩ := List.forall_mem_cons.mp each
      exact Nat.max_le.mpr ⟨here, ih others⟩

theorem levels_array_le {items : List Json} {depth : Nat}
    (each : ∀ item ∈ items, item.levels ≤ depth) : (array items).levels ≤ depth + 1 := by
  rw [levels, Nat.add_le_add_iff_right]
  induction items with
  | nil => exact Nat.zero_le _
  | cons first rest ih =>
      obtain ⟨here, others⟩ := List.forall_mem_cons.mp each
      exact Nat.max_le.mpr ⟨here, ih others⟩

/-! ### What a reader enters -/

variable {κ α : Type} {read : Reader α} {depth : Nat} {json : Json}

/-- Each result of a reader that goes through a list was read from some item. -/
theorem read_of_mapM {β : Type} {step : α → Option β} {items : List α} {results : List β}
    (all : items.mapM step = some results) {result : β} (member : result ∈ results) :
    ∃ item ∈ items, step item = some result := by
  induction items generalizing results with
  | nil =>
      cases all
      cases member
  | cons first rest ih =>
      simp only [List.mapM_cons, Option.bind_eq_bind, Option.bind_eq_some_iff, Option.pure_def,
        Option.some.injEq] at all
      obtain ⟨here, read, others, more, rfl⟩ := all
      rcases List.mem_cons.mp member with rfl | later
      · exact ⟨first, List.mem_cons_self, read⟩
      · obtain ⟨item, there, found⟩ := ih more later
        exact ⟨item, List.mem_cons_of_mem _ there, found⟩

/-- A reader that has entered a value had a level left. -/
theorem enter_cases {below : Nat} (entered : enter depth = some below) : depth = below + 1 := by
  cases depth with
  | zero => cases entered
  | succ depth =>
      cases entered
      rfl

/-- What a variant holds is read one level below. -/
theorem holding_cases {choice : Choice} (chosen : json.choice? depth = some choice) {value : α}
    (held : choice.holding read = some value) :
    ∃ below content, depth = below + 1 ∧ read below content = some value := by
  unfold Choice.holding at held
  simp only [Option.bind_eq_bind, Option.bind_eq_some_iff] at held
  obtain ⟨⟨below, content⟩, inside, found⟩ := held
  unfold choice? at chosen
  split at chosen
  · simp only [Option.map_eq_some_iff] at chosen
    obtain ⟨name, -, rfl⟩ := chosen
    cases inside
  · simp only [Option.bind_eq_bind, Option.bind_eq_some_iff, Option.pure_def,
      Option.some.injEq] at chosen
    obtain ⟨entered, down, name, -, rfl⟩ := chosen
    cases inside
    exact ⟨below, content, enter_cases down, found⟩
  · cases chosen

/-- What a variant holds is read one level below and then made into the value. -/
theorem holding_map_cases {β : Type} {choice : Choice} (chosen : json.choice? depth = some choice)
    {make : α → β} {value : β}
    (held : choice.holding (fun depth json => (read depth json).map make) = some value) :
    ∃ below content inner, depth = below + 1 ∧ read below content = some inner ∧
      make inner = value := by
  obtain ⟨below, content, deep, found⟩ := holding_cases chosen held
  obtain ⟨inner, whole, made⟩ := Option.map_eq_some_iff.mp found
  exact ⟨below, content, inner, deep, whole, made⟩

theorem members_cases {below : Nat} {named : List (String × Json)}
    (found : members depth json = some (below, named)) : depth = below + 1 := by
  unfold members at found
  split at found
  · simp only [Option.bind_eq_bind, Option.bind_eq_some_iff, Option.pure_def, Option.some.injEq,
      Prod.mk.injEq] at found
    obtain ⟨entered, down, _, -, rfl, -⟩ := found
    exact enter_cases down
  · cases found

/-- The entries of a map are read one level below. -/
theorem entries?_cases {key : String → Option κ} {entries : List (κ × α)}
    (found : entries? key read depth json = some entries) :
    ∃ below, depth = below + 1 ∧
      ∀ entry ∈ entries, ∃ content, read below content = some entry.2 := by
  simp only [entries?, Option.bind_eq_bind, Option.bind_eq_some_iff] at found
  obtain ⟨⟨below, named⟩, inside, all⟩ := found
  refine ⟨below, members_cases inside, ?_⟩
  intro entry member
  obtain ⟨item, -, each⟩ := read_of_mapM all member
  simp only [Option.bind_eq_some_iff, Option.pure_def, Option.some.injEq] at each
  obtain ⟨_, -, value, held, rfl⟩ := each
  exact ⟨item.2, held⟩

theorem list?_cases {items : List α} (found : list? read depth json = some items) :
    ∃ below, depth = below + 1 := by
  unfold list? at found
  split at found
  · simp only [Option.bind_eq_bind, Option.bind_eq_some_iff] at found
    obtain ⟨below, down, -⟩ := found
    exact ⟨below, enter_cases down⟩
  · cases found

theorem slots?_cases {names : List String} {slots : Slots}
    (found : slots? names depth json = some slots) : depth = slots.depth + 1 := by
  unfold slots? at found
  split at found
  · simp only [Option.bind_eq_bind, Option.bind_eq_some_iff] at found
    obtain ⟨below, down, shaped⟩ := found
    split at shaped
    · cases shaped
      exact enter_cases down
    · cases shaped
  · simp only [Option.bind_eq_bind, Option.bind_eq_some_iff, Option.pure_def,
      Option.some.injEq] at found
    obtain ⟨⟨below, named⟩, inside, _, -, rfl⟩ := found
    exact members_cases inside

theorem Slots.required_cases {slots : Slots} {index : Nat} {value : α}
    (found : slots.required index read = some value) :
    ∃ content, read slots.depth content = some value := by
  simp only [Slots.required, Option.bind_eq_bind, Option.bind_eq_some_iff] at found
  obtain ⟨content, -, held⟩ := found
  exact ⟨content, held⟩

end Json

/-! ### What is read -/

/-- A path that was read can be written. -/
theorem Path.writable_of_ofJson? {depth : Nat} {json : Json} {path : Path}
    (found : Codec.ofJson? depth json = some path) : path.Writable := by
  simp only [Codec.ofJson?, Option.bind_eq_bind, Option.bind_eq_some_iff] at found
  obtain ⟨text, -, parsed⟩ := found
  exact Path.writable_iff.mpr ⟨text, parsed⟩

namespace Node

/-- A regular node whose JSON form is nested no deeper than may be entered. -/
def Readable (depth : Nat) (node : Node) : Prop :=
  node.Regular ∧ node.toJson.levels ≤ depth

theorem readable_leaf {node : Node} (regular : node.Regular) (primitive : node.isPrimitive = true)
    (depth : Nat) : node.Readable (depth + 1) := by
  refine ⟨regular, ?_⟩
  cases regular with
  | bool | int | str | id | ref =>
      rw [toJson, Json.levels_variant]
      exact Nat.le_add_left 1 depth
  | _ => cases primitive

theorem levels_idsToJson_le (ids : List Identifier) (depth : Nat) :
    (idsToJson ids).levels ≤ depth + 1 := by
  apply Json.levels_array_le
  intro item member
  obtain ⟨id, -, rfl⟩ := List.mem_map.mp member
  exact Nat.zero_le _

/-- The entries of a container are no deeper than their values allow. -/
theorem levels_entries_le {κ : Type} (text : κ → String) {entries : List (κ × Node)} {depth : Nat}
    (each : ∀ entry ∈ entries, entry.2.Readable depth) :
    (Json.ofMembers (entries.map fun entry => (text entry.1, entry.2.toJson))).levels ≤
      depth + 1 := by
  apply Json.levels_ofMembers_le
  intro member there
  obtain ⟨entry, held, rfl⟩ := List.mem_map.mp there
  exact (each entry held).2

/-- A struct that is made of fields which were read can be read back itself. -/
theorem readable_struct {pairs : List (String × Node)} {depth : Nat}
    (each : ∀ pair ∈ pairs, pair.2.Readable depth) :
    (struct (.ofPairs pairs)).Readable (depth + 2) := by
  have below : ∀ entry ∈ (Fields.ofPairs pairs).entries, entry.2.Readable depth :=
    fun entry member => each entry (Keyed.mem_of_mem_sortedOfPairs member)
  constructor
  · exact .struct (Keyed.ascending_sortedOfPairs pairs) fun entry member => (below entry member).1
  · rw [toJson, Json.levels_variant, fieldsToJson_eq, Nat.add_le_add_iff_right]
    exact levels_entries_le (fun name => name) below

theorem readable_catalog {pairs : List (Identifier × Node)} {depth : Nat}
    (each : ∀ pair ∈ pairs, pair.2.Readable depth) :
    (catalog (.ofPairs pairs)).Readable (depth + 2) := by
  have below : ∀ entry ∈ (Catalog.ofPairs pairs).entries, entry.2.Readable depth :=
    fun entry member => each entry (Keyed.mem_of_mem_ofPairs member)
  constructor
  · exact .catalog (Keyed.distinct_ofPairs pairs) fun entry member => (below entry member).1
  · rw [toJson, Json.levels_variant, entriesToJson_eq, Nat.add_le_add_iff_right]
    exact levels_entries_le Identifier.text below

theorem readable_listing {domain : Path} (writable : domain.Writable) (ids : List Identifier)
    (depth : Nat) : (listing (.ofList domain ids)).Readable (depth + 3) := by
  constructor
  · refine .listing ?_ (Listing.nodup_ofList domain ids)
    rwa [Listing.domain_ofList]
  · rw [toJson, Json.levels_variant, Json.levels_pair, Nat.add_le_add_iff_right,
      Nat.add_le_add_iff_right]
    exact Nat.max_le.mpr ⟨Nat.zero_le _, levels_idsToJson_le _ depth⟩

theorem readable_sideTable {domain : Path} (writable : domain.Writable)
    {pairs : List (Identifier × Node)} {depth : Nat}
    (each : ∀ pair ∈ pairs, pair.2.Readable depth) :
    (sideTable (.ofPairs domain pairs)).Readable (depth + 3) := by
  have below : ∀ entry ∈ (SideTable.ofPairs domain pairs).entries, entry.2.Readable depth :=
    fun entry member => each entry (Keyed.mem_of_mem_ofPairs member)
  constructor
  · exact .sideTable writable (Keyed.distinct_ofPairs pairs) fun entry member =>
      (below entry member).1
  · rw [toJson, Json.levels_variant, Json.levels_pair, Nat.add_le_add_iff_right,
      Nat.add_le_add_iff_right, entriesToJson_eq]
    exact Nat.max_le.mpr ⟨Nat.zero_le _, levels_entries_le Identifier.text below⟩

/-- Whatever a reader takes for a node is regular and within the levels it may enter. -/
theorem readable_of_readJson {fuel depth : Nat} {json : Json} {node : Node}
    (read : readJson fuel depth json = some node) : node.Readable depth := by
  induction fuel generalizing depth json node with
  | zero => cases read
  | succ fuel ih =>
      -- The values of the entries of a map are read with less fuel, so they are readable.
      have entries {κ : Type} {key : String → Option κ} {depth : Nat} {json : Json}
          {pairs : List (κ × Node)}
          (found : Json.entries? key (readJson fuel) depth json = some pairs) :
          ∃ below, depth = below + 1 ∧ ∀ pair ∈ pairs, pair.2.Readable below := by
        obtain ⟨below, deep, each⟩ := Json.entries?_cases found
        refine ⟨below, deep, fun pair member => ?_⟩
        obtain ⟨content, held⟩ := each pair member
        exact ih held
      simp only [readJson, Option.bind_eq_bind, Option.bind_eq_some_iff] at read
      obtain ⟨choice, chosen, held⟩ := read
      split at held
      case h_1 =>
        obtain ⟨below, -, value, rfl, -, rfl⟩ := Json.holding_map_cases chosen held
        exact readable_leaf (.bool value) rfl below
      case h_2 =>
        obtain ⟨below, -, value, rfl, -, rfl⟩ := Json.holding_map_cases chosen held
        exact readable_leaf (.int value) rfl below
      case h_3 =>
        obtain ⟨below, -, value, rfl, -, rfl⟩ := Json.holding_map_cases chosen held
        exact readable_leaf (.str value) rfl below
      case h_4 =>
        obtain ⟨below, -, own, rfl, -, rfl⟩ := Json.holding_map_cases chosen held
        exact readable_leaf (.id own) rfl below
      case h_5 =>
        obtain ⟨below, content, target, rfl, path, rfl⟩ := Json.holding_map_cases chosen held
        exact readable_leaf (.ref (Path.writable_of_ofJson? path)) rfl below
      case h_6 =>
        obtain ⟨inner, content, pairs, rfl, members, rfl⟩ := Json.holding_map_cases chosen held
        obtain ⟨below, rfl, each⟩ := entries members
        exact readable_struct each
      case h_7 =>
        obtain ⟨inner, content, pairs, rfl, members, rfl⟩ := Json.holding_map_cases chosen held
        obtain ⟨below, rfl, each⟩ := entries members
        exact readable_catalog each
      case h_8 =>
        obtain ⟨inner, content, rfl, found⟩ := Json.holding_cases chosen held
        simp only [Option.bind_eq_some_iff, Option.pure_def, Option.some.injEq] at found
        obtain ⟨slots, record, domain, path, ids, listed, rfl⟩ := found
        obtain ⟨written, held⟩ := Json.Slots.required_cases path
        obtain ⟨array, items⟩ := Json.Slots.required_cases listed
        obtain ⟨below, deep⟩ := Json.list?_cases items
        rw [Json.slots?_cases record, deep]
        exact readable_listing (Path.writable_of_ofJson? held) ids below
      case h_9 =>
        obtain ⟨inner, content, rfl, found⟩ := Json.holding_cases chosen held
        simp only [Option.bind_eq_some_iff, Option.pure_def, Option.some.injEq] at found
        obtain ⟨slots, record, domain, path, pairs, listed, rfl⟩ := found
        obtain ⟨written, held⟩ := Json.Slots.required_cases path
        obtain ⟨map, members⟩ := Json.Slots.required_cases listed
        obtain ⟨below, deep, each⟩ := entries members
        rw [Json.slots?_cases record, deep]
        exact readable_sideTable (Path.writable_of_ofJson? held) each
      case h_10 => cases held

end Node

/-- The trees that come back from their own JSON text are the regular ones whose text is nested no
deeper than is read, and no text stands for any other: whatever is read is written and read again
as it is, with all entries in their order. -/
theorem StateFormat.json_stable (root : Node) :
    [root.Regular ∧ StateFormat.json.Holds root,
      StateFormat.json.decode? (StateFormat.json.encode root) = some root,
      ∃ bytes, StateFormat.json.decode? bytes = some root].TFAE := by
  apply List.tfae_of_cycle
  · refine .cons_cons (fun ⟨regular, holds⟩ => decode?_encode regular holds) ?_
    refine .cons_cons (fun back => ⟨_, back⟩) (.singleton _)
  · rintro ⟨bytes, found⟩
    simp only [decode?, Codec.ofJsonText?, Option.bind_eq_bind, Option.bind_eq_some_iff] at found
    obtain ⟨json, -, read⟩ := found
    exact Node.readable_of_readJson read

end StateTree
