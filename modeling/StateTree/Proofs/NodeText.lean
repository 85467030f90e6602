/-
Module: StateTree.Proofs.NodeText
Purpose: Reading stored trees back. A regular tree that JSON does not nest too deep, or whose octets
  can be counted, comes back from its stored form as it was.
-/
import StateTree.Log.Manifest
import StateTree.Proofs.JsonText
import StateTree.Proofs.Layout
import StateTree.Proofs.Regularity

namespace StateTree

namespace Json

/-! ### How deep a value is nested -/

mutual

/-- How many arrays and objects are within one another. -/
def levels : Json → Nat
  | .array items => levelsOfItems items + 1
  | .object members => levelsOfMembers members + 1
  | _ => 0
termination_by structural value => value

def levelsOfItems : List Json → Nat
  | [] => 0
  | item :: rest => max (levels item) (levelsOfItems rest)
termination_by structural items => items

def levelsOfMembers : List (Bytes × Json) → Nat
  | [] => 0
  | (_, value) :: rest => max (levels value) (levelsOfMembers rest)
termination_by structural members => members

end

theorem levels_variant (name : String) (content : Json) :
    (variant name content).levels = content.levels + 1 := by
  simp [variant, ofMembers, levels, levelsOfMembers]

theorem levels_pair (first second : String) (a b : Json) :
    (ofMembers [(first, a), (second, b)]).levels = max a.levels b.levels + 1 := by
  simp [ofMembers, levels, levelsOfMembers]

/-- What stands below a member is nested less deep than the whole. -/
theorem levels_lt_of_mem {members : List (String × Json)} {member : String × Json}
    (there : member ∈ members) : member.2.levels < (ofMembers members).levels := by
  rw [ofMembers, levels, Nat.lt_succ_iff]
  induction members with
  | nil => cases there
  | cons first rest ih =>
      rw [List.map_cons, levelsOfMembers]
      rcases List.mem_cons.mp there with rfl | later
      · exact Nat.le_max_left _ _
      · exact Nat.le_trans (ih later) (Nat.le_max_right _ _)

/-! ### Reading what was written -/

theorem standard_ofText (text : String) : Standard (ofText text) := .string _

theorem standard_ofInt (n : Int) : Standard (ofInt n) := .number n

/-- Members whose values are standard are written as a standard value. -/
theorem standard_ofMembers {members : List (String × Json)}
    (below : ∀ member ∈ members, Standard member.2) : Standard (ofMembers members) := by
  apply Standard.object
  · intro member there
    obtain ⟨named, -, rfl⟩ := List.mem_map.mp there
    exact ⟨_, rfl⟩
  · intro member there
    obtain ⟨named, held, rfl⟩ := List.mem_map.mp there
    exact below named held

theorem standard_variant (name : String) {content : Json} (below : Standard content) :
    Standard (variant name content) :=
  standard_ofMembers (by simpa using below)

theorem standard_pair (first second : String) {a b : Json} (left : Standard a)
    (right : Standard b) : Standard (ofMembers [(first, a), (second, b)]) := by
  apply standard_ofMembers
  simp [left, right]

theorem text?_ofText (text : String) : (ofText text).text? = some text :=
  textOf?_escape text

theorem int?_ofInt (n : Int) : (ofInt n).int? = some n :=
  intOf?_integer n

theorem choice?_variant (depth : Nat) (name : String) (content : Json) :
    choice? (depth + 1) (variant name content) = some ⟨name, some (depth, content)⟩ := by
  simp [variant, ofMembers, choice?, enter, textOf?_escape]

/-- Members are read as they were written, one level further down. -/
theorem members_ofMembers (depth : Nat) (named : List (String × Json)) :
    members (depth + 1) (ofMembers named) = some (depth, named) := by
  have each : (named.map fun member => (escape (Text.utf8 member.1), member.2)).mapM
      (fun member => (textOf? member.1).map fun name => (name, member.2)) = some named := by
    induction named with
    | nil => rfl
    | cons member rest ih => simp [ih, textOf?_escape]
  simp only [members, ofMembers, enter, Option.bind_eq_bind, Option.bind_some, each]
  rfl

/-- A pair of named values is read by its names. -/
theorem slots?_pair {first second : String} (different : first ≠ second) (depth : Nat)
    (a b : Json) :
    slots? [first, second] (depth + 1) (ofMembers [(first, a), (second, b)]) =
      some ⟨depth, false, [some a, some b]⟩ := by
  have named := members_ofMembers depth [(first, a), (second, b)]
  simp only [ofMembers, List.map_cons, List.map_nil] at named ⊢
  simp [slots?, named, slotNamed, different, different.symm]

variable {κ α : Type}

theorem required_first (depth : Nat) (a b : Json) (read : Reader α) :
    (Slots.mk depth false [some a, some b]).required 0 read = read depth a := rfl

theorem required_second (depth : Nat) (a b : Json) (read : Reader α) :
    (Slots.mk depth false [some a, some b]).required 1 read = read depth b := rfl

/-- The entries of a map come back if the keys and the values do. -/
theorem entries?_ofMembers {key : String → Option κ} {read : Reader α} {text : κ → String}
    {write : α → Json} {depth : Nat} {entries : List (κ × α)}
    (keys : ∀ entry ∈ entries, key (text entry.1) = some entry.1)
    (values : ∀ entry ∈ entries, read depth (write entry.2) = some entry.2) :
    entries? key read (depth + 1)
      (ofMembers (entries.map fun entry => (text entry.1, write entry.2))) = some entries := by
  simp only [entries?, members_ofMembers, Option.bind_eq_bind, Option.bind_some]
  induction entries with
  | nil => rfl
  | cons entry rest ih =>
      obtain ⟨here, others⟩ := List.forall_mem_cons.mp keys
      obtain ⟨first, later⟩ := List.forall_mem_cons.mp values
      have more := ih others later
      simp only [List.map_cons, List.mapM_cons, here, first, Option.bind_eq_bind,
        Option.bind_some] at more ⊢
      rw [more]
      rfl

/-- An array is read back item by item. -/
theorem list?_map {read : Reader α} {write : α → Json} {depth : Nat} {items : List α}
    (each : ∀ item ∈ items, read depth (write item) = some item) :
    list? read (depth + 1) (.array (items.map write)) = some items := by
  simp only [list?, enter, Option.bind_eq_bind, Option.bind_some]
  induction items with
  | nil => rfl
  | cons item rest ih =>
      obtain ⟨first, later⟩ := List.forall_mem_cons.mp each
      simp [first, ih later]

end Json

namespace Node

/-! ### JSON -/

/-- Fields and entries are written as members, each under its name or the text of its identifier. -/
theorem fieldsToJson_eq (fields : List (String × Node)) :
    Json.object (fieldsToJson fields) =
      .ofMembers (fields.map fun field => (field.1, toJson field.2)) := by
  rw [Json.ofMembers, Json.object.injEq]
  induction fields with
  | nil => rfl
  | cons field rest ih =>
      rw [fieldsToJson, ih]
      rfl

theorem entriesToJson_eq (entries : List (Identifier × Node)) :
    Json.object (entriesToJson entries) =
      .ofMembers (entries.map fun entry => (entry.1.text, toJson entry.2)) := by
  rw [Json.ofMembers, Json.object.injEq]
  induction entries with
  | nil => rfl
  | cons entry rest ih =>
      rw [entriesToJson, ih]
      rfl

/-- The strings and numbers of the value that a node is written as were written from texts and
integers. -/
theorem standard_toJson (node : Node) : Json.Standard node.toJson := by
  induction node using Node.induct with
  | leaf node primitive =>
      cases node with
      | bool value => exact Json.standard_variant _ (.bool value)
      | int value => exact Json.standard_variant _ (Json.standard_ofInt _)
      | str text => exact Json.standard_variant _ (Json.standard_ofText text)
      | id own => exact Json.standard_variant _ (Json.standard_ofText _)
      | ref target => exact Json.standard_variant _ (Json.standard_ofText _)
      | _ => cases primitive
  | listing ids =>
      have listed : Json.Standard (idsToJson ids.ids) := by
        apply Json.Standard.array
        intro item member
        obtain ⟨id, -, rfl⟩ := List.mem_map.mp member
        exact Json.standard_ofText _
      exact Json.standard_variant _ (Json.standard_pair _ _ (Json.standard_ofText _) listed)
  | struct fields below =>
      apply Json.standard_variant
      rw [fieldsToJson_eq]
      apply Json.standard_ofMembers
      intro member there
      obtain ⟨field, held, rfl⟩ := List.mem_map.mp there
      exact below field held
  | catalog entities below =>
      apply Json.standard_variant
      rw [entriesToJson_eq]
      apply Json.standard_ofMembers
      intro member there
      obtain ⟨entry, held, rfl⟩ := List.mem_map.mp there
      exact below entry held
  | sideTable table below =>
      have held : Json.Standard (.object (entriesToJson table.entries)) := by
        rw [entriesToJson_eq]
        apply Json.standard_ofMembers
        intro member there
        obtain ⟨entry, held, rfl⟩ := List.mem_map.mp there
        exact below entry held
      exact Json.standard_variant _ (Json.standard_pair _ _ (Json.standard_ofText _) held)

/-- A node is read from its JSON form if that is nested no deeper than may be entered. -/
def ReadsBack (node : Node) : Prop :=
  ∀ depth fuel, node.toJson.levels ≤ depth → depth < fuel →
    readJson fuel depth node.toJson = some node

theorem levels_toJson_pos (node : Node) : 0 < node.toJson.levels := by
  cases node <;> rw [toJson, Json.levels_variant] <;> exact Nat.succ_pos _

/-- No node is written as nothing, so its reader has a level and a step left. -/
theorem readsBack_of_succ {node : Node}
    (succ : ∀ depth fuel, node.toJson.levels ≤ depth + 1 → depth ≤ fuel →
      readJson (fuel + 1) (depth + 1) node.toJson = some node) : node.ReadsBack := by
  intro depth fuel shallow enough
  have some := node.levels_toJson_pos
  cases depth with
  | zero => omega
  | succ depth =>
      cases fuel with
      | zero => omega
      | succ fuel => exact succ depth fuel shallow (by omega)

/-- A node without children reads back from its own text. -/
theorem readsBack_leaf {node : Node} (regular : node.Regular)
    (primitive : node.isPrimitive = true) : node.ReadsBack := by
  apply readsBack_of_succ
  intro depth fuel _ _
  cases regular with
  | bool value => simp [readJson, toJson, Json.choice?_variant, Json.Choice.holding, Json.bool?]
  | int value =>
      have inside : Int64.minValue.toInt ≤ value.toInt ∧ value.toInt ≤ Int64.maxValue.toInt :=
        ⟨value.minValue_le_toInt, value.toInt_le⟩
      simp only [readJson, toJson, Json.choice?_variant, Json.Choice.holding, Json.int64?,
        Json.int?_ofInt, Option.bind_eq_bind, Option.bind_some, if_pos inside]
      simp
  | str text =>
      simp [readJson, toJson, Json.choice?_variant, Json.Choice.holding, Json.text?_ofText]
  | id own =>
      simp [readJson, toJson, Json.choice?_variant, Json.Choice.holding, Json.text?_ofText,
        Codec.toJson, Codec.ofJson?, Identifier.ofString?_text]
  | ref writable =>
      simp [readJson, toJson, Json.choice?_variant, Json.Choice.holding, Json.text?_ofText,
        Codec.toJson, Codec.ofJson?, Path.parse?_render writable]
  | _ => cases primitive

/-- The entries of a container come back when each value does. -/
theorem entries?_readsBack {κ : Type} {key : String → Option κ} (text : κ → String)
    {depth fuel : Nat} {entries : List (κ × Node)}
    (keys : ∀ entry ∈ entries, key (text entry.1) = some entry.1)
    (back : ∀ entry ∈ entries, entry.2.ReadsBack)
    (shallow : (Json.ofMembers (entries.map fun entry => (text entry.1, entry.2.toJson))).levels ≤
      depth) (enough : depth ≤ fuel) :
    Json.entries? key (readJson fuel) depth
      (.ofMembers (entries.map fun entry => (text entry.1, entry.2.toJson))) = some entries := by
  cases depth with
  | zero => simp [Json.ofMembers, Json.levels] at shallow
  | succ depth =>
      apply Json.entries?_ofMembers keys
      intro entry member
      have below : entry.2.toJson.levels < _ := Json.levels_lt_of_mem (List.mem_map_of_mem
        (f := fun entry : κ × Node => (text entry.1, entry.2.toJson)) member)
      exact back entry member depth fuel (by omega) (by omega)

/-- A regular node is read back. -/
theorem readsBack {node : Node} (regular : node.Regular) : node.ReadsBack := by
  induction regular with
  | @struct fields ascending below ih =>
      apply readsBack_of_succ
      intro depth fuel shallow enough
      rw [toJson, Json.levels_variant, fieldsToJson_eq, Nat.add_le_add_iff_right] at shallow
      have keys : ∀ field ∈ fields.entries, some field.1 = some field.1 := fun _ _ => rfl
      have read := entries?_readsBack (fun name => name) keys ih shallow enough
      rw [toJson, fieldsToJson_eq]
      simp only [readJson, Json.choice?_variant, Json.Choice.holding, read, Option.bind_eq_bind,
        Option.bind_some, Option.map_some]
      rw [Fields.ofPairs, Keyed.sortedOfPairs_of_ascending ascending]
  | catalog distinct below ih =>
      apply readsBack_of_succ
      intro depth fuel shallow enough
      rw [toJson, Json.levels_variant, entriesToJson_eq, Nat.add_le_add_iff_right] at shallow
      have read := entries?_readsBack Identifier.text (fun entry _ => entry.1.ofString?_text) ih
        shallow enough
      rw [toJson, entriesToJson_eq]
      simp only [readJson, Json.choice?_variant, Json.Choice.holding, read, Option.bind_eq_bind,
        Option.bind_some, Option.map_some]
      rw [Catalog.ofPairs, Keyed.ofPairs_of_distinct distinct]
  | @listing ids writable distinct =>
      apply readsBack_of_succ
      intro depth fuel shallow enough
      rw [toJson, Json.levels_variant, Nat.add_le_add_iff_right, Json.levels_pair] at shallow
      have listed : (idsToJson ids.ids).levels ≠ 0 := by simp [idsToJson, Json.levels]
      obtain ⟨depth, rfl⟩ : ∃ below, depth = below + 2 := ⟨depth - 2, by omega⟩
      have read : Json.list? Codec.ofJson? (depth + 1) (idsToJson ids.ids) = some ids.ids := by
        apply Json.list?_map
        intro id member
        simp [Codec.toJson, Codec.ofJson?, Json.text?_ofText, Identifier.ofString?_text]
      have domain : Codec.ofJson? (depth + 1) (Codec.toJson ids.domain) = some ids.domain := by
        simp [Codec.toJson, Codec.ofJson?, Json.text?_ofText, Path.parse?_render writable]
      rw [toJson]
      simp only [readJson, Json.choice?_variant, Json.Choice.holding,
        Json.slots?_pair (by decide : "domain" ≠ "ids"), Json.required_first,
        Json.required_second, domain, read, Option.bind_eq_bind, Option.bind_some]
      rw [Listing.ofList_of_nodup _ distinct]
      rfl
  | @sideTable table writable distinct below ih =>
      apply readsBack_of_succ
      intro depth fuel shallow enough
      rw [toJson, Json.levels_variant, Nat.add_le_add_iff_right, Json.levels_pair,
        entriesToJson_eq] at shallow
      obtain ⟨depth, rfl⟩ : ∃ below, depth = below + 1 := ⟨depth - 1, by omega⟩
      have within : (Json.ofMembers (table.entries.map fun entry =>
          (entry.1.text, entry.2.toJson))).levels ≤ depth := by
        omega
      have read := entries?_readsBack Identifier.text (fun entry _ => entry.1.ofString?_text) ih
        within (Nat.le_of_succ_le enough)
      have domain : Codec.ofJson? depth (Codec.toJson table.domain) = some table.domain := by
        simp [Codec.toJson, Codec.ofJson?, Json.text?_ofText, Path.parse?_render writable]
      rw [toJson, entriesToJson_eq]
      simp only [readJson, Json.choice?_variant, Json.Choice.holding,
        Json.slots?_pair (by decide : "domain" ≠ "entries"), Json.required_first,
        Json.required_second, domain, read, Option.bind_eq_bind, Option.bind_some]
      rw [SideTable.ofPairs, Keyed.ofPairs_of_distinct distinct]
      rfl
  | bool value => exact readsBack_leaf (.bool value) rfl
  | int value => exact readsBack_leaf (.int value) rfl
  | str text => exact readsBack_leaf (.str text) rfl
  | id own => exact readsBack_leaf (.id own) rfl
  | ref writable => exact readsBack_leaf (.ref writable) rfl

/-! ### The binary layout -/

/-- A value after the text of its key. -/
def putNamed {κ : Type} (text : κ → String) (entry : κ × Node) : Bytes :=
  Binary.putText (text entry.1) ++ put entry.2

/-- The octets of fields and entries are those of one named value after the other. -/
theorem putFields_eq (fields : List (String × Node)) :
    putFields fields = fields.flatMap (putNamed fun name => name) := by
  induction fields with
  | nil => rfl
  | cons field rest ih =>
      rw [putFields, ih]
      rfl

theorem putEntries_eq (entries : List (Identifier × Node)) :
    putEntries entries = entries.flatMap (putNamed Identifier.text) := by
  induction entries with
  | nil => rfl
  | cons entry rest ih =>
      rw [putEntries, ih]
      rfl

/-- A node is read from its octets if they can be counted. -/
def ReadsBinary (node : Node) : Prop :=
  ∀ fuel, node.put.length < UInt64.size → node.put.length < fuel →
    Binary.Reads (readBinary fuel) node.put node

theorem length_putWord64 (n : Nat) : (Binary.putWord64 n).length = 8 :=
  Binary.length_littleEndian 8 n

theorem utf8_length_lt (text : String) :
    (Text.utf8 text).length < (Binary.putText text).length := by
  rw [Binary.putText, Binary.putBytes, List.length_append, length_putWord64]
  omega

theorem length_le_of_mem {α : Type} (put : α → Bytes) {items : List α} {item : α}
    (member : item ∈ items) : (put item).length ≤ (items.flatMap put).length := by
  induction items with
  | nil => cases member
  | cons first rest ih =>
      rw [List.flatMap_cons, List.length_append]
      rcases List.mem_cons.mp member with rfl | later
      · exact Nat.le_add_right _ _
      · exact Nat.le_trans (ih later) (Nat.le_add_left _ _)

/-- There are at least as many octets as items, if no item is written as nothing. -/
theorem length_le_flatMap {α : Type} {put : α → Bytes} {items : List α}
    (some : ∀ item ∈ items, 0 < (put item).length) :
    items.length ≤ (items.flatMap put).length := by
  induction items with
  | nil => exact Nat.zero_le _
  | cons first rest ih =>
      obtain ⟨here, later⟩ := List.forall_mem_cons.mp some
      have more := ih later
      rw [List.flatMap_cons, List.length_append, List.length_cons]
      omega

theorem reads_identifier {own : Identifier} (short : (Text.utf8 own.text).length < UInt64.size) :
    Binary.Reads (Codec.get (α := Identifier)) (Binary.putText own.text) own := by
  apply (Binary.reads_text short).map
  rw [own.ofString?_text]
  rfl

/-- Paths that can be written are read back, and so are identifiers. -/
theorem reads_path {path : Path} (writable : path.Writable)
    (short : (Text.utf8 path.render).length < UInt64.size) :
    Binary.Reads (Codec.get (α := Path)) (Binary.putText path.render) path := by
  apply (Binary.reads_text short).map
  rw [Path.parse?_render writable]
  rfl

/-- The entries of a container come back when each value does. -/
theorem reads_entries {κ : Type} {key : Binary.Reader κ} (text : κ → String) {fuel : Nat}
    {entries : List (κ × Node)}
    (keys : ∀ entry ∈ entries, (Text.utf8 (text entry.1)).length < UInt64.size →
      Binary.Reads key (Binary.putText (text entry.1)) entry.1)
    (back : ∀ entry ∈ entries, entry.2.ReadsBinary)
    (short : (entries.flatMap (putNamed text)).length < UInt64.size)
    (enough : (entries.flatMap (putNamed text)).length < fuel) :
    Binary.Reads (Binary.getList (getEntry key (readBinary fuel)))
      (Binary.putWord64 entries.length ++ entries.flatMap (putNamed text)) entries := by
  have split (entry : κ × Node) : (putNamed text entry).length =
      (Binary.putText (text entry.1)).length + entry.2.put.length := List.length_append
  have named (entry : κ × Node) := utf8_length_lt (text entry.1)
  have count : entries.length ≤ (entries.flatMap (putNamed text)).length := by
    apply length_le_flatMap
    intro entry _
    have := named entry
    have := split entry
    omega
  apply Binary.reads_list (by omega)
  intro entry member
  have part := length_le_of_mem (putNamed text) member
  have := named entry
  rw [split] at part
  apply (keys entry member (by omega)).bind
  exact (back entry member fuel (by omega) (by omega)).map rfl

/-- What is read after the number of a variant. -/
theorem readsBinary_of_variant {node : Node} {variant : Nat} {bytes : Bytes}
    (written : node.put = Binary.putWord32 variant ++ bytes)
    (reads : ∀ fuel, bytes.length < UInt64.size → bytes.length < fuel →
      Binary.Reads (readBinary (fuel + 1)) (Binary.putWord32 variant ++ bytes) node) :
    node.ReadsBinary := by
  intro fuel short enough
  have length : node.put.length = 4 + bytes.length := by
    rw [written, List.length_append]
    exact congrArg (· + bytes.length) (Binary.length_littleEndian 4 variant)
  cases fuel with
  | zero => cases enough
  | succ fuel =>
      rw [written]
      exact reads fuel (by omega) (by omega)

/-- A regular node reads back from its octets, by induction on the node. -/
theorem readsBinary {node : Node} (regular : node.Regular) : node.ReadsBinary := by
  induction regular with
  | bool value =>
      apply readsBinary_of_variant rfl
      intro fuel short enough
      exact (Binary.reads_word32 (by decide)).bind ((Binary.reads_bool value).map rfl)
  | int value =>
      apply readsBinary_of_variant rfl
      intro fuel short enough
      exact (Binary.reads_word32 (by decide)).bind ((Binary.reads_int value).map rfl)
  | str text =>
      apply readsBinary_of_variant rfl
      intro fuel short enough
      have counted := Nat.lt_trans (utf8_length_lt text) short
      exact (Binary.reads_word32 (by decide)).bind ((Binary.reads_text counted).map rfl)
  | id own =>
      apply readsBinary_of_variant rfl
      intro fuel short enough
      have counted := Nat.lt_trans (utf8_length_lt own.text) short
      exact (Binary.reads_word32 (by decide)).bind ((reads_identifier counted).map rfl)
  | @ref target writable =>
      apply readsBinary_of_variant rfl
      intro fuel short enough
      have counted := Nat.lt_trans (utf8_length_lt target.render) short
      exact (Binary.reads_word32 (by decide)).bind ((reads_path writable counted).map rfl)
  | @struct fields ascending below ih =>
      have written : put (.struct fields) = Binary.putWord32 5 ++
          (Binary.putWord64 fields.entries.length ++
            fields.entries.flatMap (putNamed fun name => name)) := by
        rw [put, putFields_eq, List.append_assoc]
      apply readsBinary_of_variant written
      intro fuel short enough
      rw [List.length_append] at short enough
      apply (Binary.reads_word32 (by decide)).bind
      apply (reads_entries (fun name => name) (fun _ _ => Binary.reads_text) ih (by omega)
        (by omega)).map
      rw [Fields.ofPairs, Keyed.sortedOfPairs_of_ascending ascending]
  | @catalog entities distinct below ih =>
      have written : put (.catalog entities) = Binary.putWord32 6 ++
          (Binary.putWord64 entities.entries.length ++
            entities.entries.flatMap (putNamed Identifier.text)) := by
        rw [put, putEntries_eq, List.append_assoc]
      apply readsBinary_of_variant written
      intro fuel short enough
      rw [List.length_append] at short enough
      apply (Binary.reads_word32 (by decide)).bind
      apply (reads_entries Identifier.text (fun _ _ => reads_identifier) ih (by omega)
        (by omega)).map
      rw [Catalog.ofPairs, Keyed.ofPairs_of_distinct distinct]
  | @listing ids writable distinct =>
      have written : put (.listing ids) = Binary.putWord32 7 ++
          (Binary.putText ids.domain.render ++ Binary.putList Codec.put ids.ids) :=
        List.append_assoc _ _ _
      apply readsBinary_of_variant written
      intro fuel short enough
      rw [List.length_append, Binary.putList, List.length_append] at short
      have domain := utf8_length_lt ids.domain.render
      have named (id : Identifier) : (Text.utf8 id.text).length < (Codec.put id).length :=
        utf8_length_lt id.text
      have count : ids.ids.length ≤ (ids.ids.flatMap Codec.put).length :=
        length_le_flatMap fun id _ => Nat.zero_lt_of_lt (named id)
      apply (Binary.reads_word32 (by decide)).bind
      apply (reads_path writable (by omega)).bind
      apply (Binary.reads_list (by omega) _).map
      · rw [Listing.ofList_of_nodup _ distinct]
      · intro id member
        have part := length_le_of_mem Codec.put member
        have := named id
        exact reads_identifier (by omega)
  | @sideTable table writable distinct below ih =>
      have written : put (.sideTable table) = Binary.putWord32 8 ++
          (Binary.putText table.domain.render ++ (Binary.putWord64 table.entries.length ++
            table.entries.flatMap (putNamed Identifier.text))) := by
        rw [put, putEntries_eq, List.append_assoc, List.append_assoc]
        rfl
      apply readsBinary_of_variant written
      intro fuel short enough
      rw [List.length_append, List.length_append] at short enough
      have domain := utf8_length_lt table.domain.render
      apply (Binary.reads_word32 (by decide)).bind
      apply (reads_path writable (by omega)).bind
      apply (reads_entries Identifier.text (fun _ _ => reads_identifier) ih (by omega)
        (by omega)).map
      rw [SideTable.ofPairs, Keyed.ofPairs_of_distinct distinct]

end Node

/-! ### Either format -/

/-- Whether a tree may be stored in a format: JSON nests no deeper than it is read, octets can be
counted. -/
def StateFormat.Holds : StateFormat → Node → Prop
  | .json, root => root.toJson.levels ≤ Json.depthLimit
  | .binary, root => root.put.length < UInt64.size

instance (format : StateFormat) (root : Node) : Decidable (format.Holds root) :=
  match format with
  | .json => inferInstanceAs (Decidable (root.toJson.levels ≤ Json.depthLimit))
  | .binary => inferInstanceAs (Decidable (root.put.length < UInt64.size))

/-- A regular tree that may be stored in a format is read back from it. -/
theorem StateFormat.decode?_encode {format : StateFormat} {root : Node} (regular : root.Regular)
    (holds : format.Holds root) : format.decode? (format.encode root) = some root := by
  cases format with
  | json =>
      have read := Node.readsBack regular Json.depthLimit (Json.depthLimit + 1) holds
        (Nat.lt_succ_self _)
      have parsed := Json.parse?_print root.standard_toJson
      simp only [decode?, encode, Codec.ofJsonText?, Codec.json, Codec.toJson, Codec.ofJson?,
        parsed, read, Option.bind_eq_bind, Option.bind_some]
  | binary =>
      have read := Node.readsBinary regular (root.put.length + 1) holds (Nat.lt_succ_self _) []
      rw [List.append_nil] at read
      simp only [decode?, encode, Codec.ofBinary?, Codec.put, Codec.get, read,
        Option.bind_eq_bind, Option.bind_some, Option.pure_def]

end StateTree
