/-
Module: StateTree.Codec.Node
Purpose: The stored forms of nodes. Structs and catalogs are maps, listings and side tables records
  of a domain and what is listed. A reader takes repeated keys: of two values the later one counts,
  in the place of the earlier one, and of repeated identifiers in a listing the first.
-/
import StateTree.Codec.Basic
import StateTree.Node.Basic

namespace StateTree

namespace Node

/-! ## JSON -/

/-- The JSON form of the identifiers of a listing. -/
def idsToJson (ids : List Identifier) : Json := .array (ids.map Codec.toJson)

mutual

/-- The JSON form of a node: its variant with what it holds. -/
def toJson : Node → Json
  | .bool value => .variant "Bool" (.bool value)
  | .int value => .variant "Int" (.ofInt value.toInt)
  | .str text => .variant "Str" (.ofText text)
  | .id own => .variant "Id" (Codec.toJson own)
  | .ref target => .variant "Ref" (Codec.toJson target)
  | .struct ⟨fields⟩ => .variant "Struct" (.object (fieldsToJson fields))
  | .catalog ⟨entries⟩ => .variant "Catalog" (.object (entriesToJson entries))
  | .listing ⟨domain, ids⟩ =>
      .variant "Listing" (.ofMembers [("domain", Codec.toJson domain), ("ids", idsToJson ids)])
  | .sideTable ⟨domain, entries⟩ =>
      .variant "SideTable"
        (.ofMembers [("domain", Codec.toJson domain), ("entries", .object (entriesToJson entries))])
termination_by structural node => node

/-- The members of a struct's fields. -/
def fieldsToJson : List (String × Node) → List (Bytes × Json)
  | [] => []
  | (name, value) :: rest => (Json.escape (Text.utf8 name), toJson value) :: fieldsToJson rest
termination_by structural fields => fields

/-- The members of a container's entries. -/
def entriesToJson : List (Identifier × Node) → List (Bytes × Json)
  | [] => []
  | (key, value) :: rest => (Json.escape (Text.utf8 key.text), toJson value) :: entriesToJson rest
termination_by structural entries => entries

end

/-- The node of a JSON value. The first argument bounds how deep nodes are nested; as each one
enters an object of its own, one more than the levels that may be entered is enough. -/
def readJson : Nat → Json.Reader Node
  | 0 => fun _ _ => none
  | fuel + 1 => fun depth json => do
      let choice ← json.choice? depth
      match choice.name with
      | "Bool" => choice.holding fun _ json => json.bool?.map .bool
      | "Int" => choice.holding fun depth json => (Json.int64? depth json).map .int
      | "Str" => choice.holding fun _ json => json.text?.map .str
      | "Id" => choice.holding fun depth json => (Codec.ofJson? depth json).map .id
      | "Ref" => choice.holding fun depth json => (Codec.ofJson? depth json).map .ref
      | "Struct" =>
          choice.holding fun depth json =>
            (Json.entries? some (readJson fuel) depth json).map fun fields =>
              .struct (.ofPairs fields)
      | "Catalog" =>
          choice.holding fun depth json =>
            (Json.entries? Identifier.ofString? (readJson fuel) depth json).map fun entries =>
              .catalog (.ofPairs entries)
      | "Listing" =>
          choice.holding fun depth json => do
            let slots ← Json.slots? ["domain", "ids"] depth json
            let domain ← slots.required 0 Codec.ofJson?
            let ids ← slots.required 1 (Json.list? Codec.ofJson?)
            pure (.listing (.ofList domain ids))
      | "SideTable" =>
          choice.holding fun depth json => do
            let slots ← Json.slots? ["domain", "entries"] depth json
            let domain ← slots.required 0 Codec.ofJson?
            let entries ← slots.required 1 (Json.entries? Identifier.ofString? (readJson fuel))
            pure (.sideTable (.ofPairs domain entries))
      | _ => none

/-! ## The binary layout -/

mutual

/-- The octets of a node. -/
def put : Node → Bytes
  | .bool value => Binary.putWord32 0 ++ Binary.putBool value
  | .int value => Binary.putWord32 1 ++ Binary.putInt value
  | .str text => Binary.putWord32 2 ++ Binary.putText text
  | .id own => Binary.putWord32 3 ++ Codec.put own
  | .ref target => Binary.putWord32 4 ++ Codec.put target
  | .struct ⟨fields⟩ => Binary.putWord32 5 ++ Binary.putWord64 fields.length ++ putFields fields
  | .catalog ⟨entries⟩ =>
      Binary.putWord32 6 ++ Binary.putWord64 entries.length ++ putEntries entries
  | .listing ⟨domain, ids⟩ =>
      Binary.putWord32 7 ++ Codec.put domain ++ Binary.putList Codec.put ids
  | .sideTable ⟨domain, entries⟩ =>
      Binary.putWord32 8 ++ Codec.put domain ++ Binary.putWord64 entries.length
        ++ putEntries entries
termination_by structural node => node

/-- The octets of a struct's fields. -/
def putFields : List (String × Node) → Bytes
  | [] => []
  | (name, value) :: rest => Binary.putText name ++ put value ++ putFields rest
termination_by structural fields => fields

/-- The octets of a container's entries. -/
def putEntries : List (Identifier × Node) → Bytes
  | [] => []
  | (key, value) :: rest => Codec.put key ++ put value ++ putEntries rest
termination_by structural entries => entries

end

/-- A key with its value. -/
def getEntry {κ : Type} (key : Binary.Reader κ) (value : Binary.Reader Node) :
    Binary.Reader (κ × Node) := do
  let key ← key
  let value ← value
  pure (key, value)

/-- Read a node. The first argument bounds how deep nodes are nested; as each one begins with four
octets of its own, the number of octets is enough. -/
def readBinary : Nat → Binary.Reader Node
  | 0 => Binary.refuse
  | fuel + 1 => do
      let variant ← Binary.getWord32
      match variant with
      | 0 => do
          let value ← Binary.getBool
          pure (.bool value)
      | 1 => do
          let value ← Binary.getInt
          pure (.int value)
      | 2 => do
          let text ← Binary.getText
          pure (.str text)
      | 3 => do
          let own ← Codec.get
          pure (.id own)
      | 4 => do
          let target ← Codec.get
          pure (.ref target)
      | 5 => do
          let fields ← Binary.getList (getEntry Binary.getText (readBinary fuel))
          pure (.struct (.ofPairs fields))
      | 6 => do
          let entries ← Binary.getList (getEntry Codec.get (readBinary fuel))
          pure (.catalog (.ofPairs entries))
      | 7 => do
          let domain ← Codec.get
          let ids ← Binary.getList Codec.get
          pure (.listing (.ofList domain ids))
      | 8 => do
          let domain ← Codec.get
          let entries ← Binary.getList (getEntry Codec.get (readBinary fuel))
          pure (.sideTable (.ofPairs domain entries))
      | _ => Binary.refuse

instance : Codec Node where
  toJson := toJson
  ofJson? depth json := readJson (depth + 1) depth json
  put := put
  get bytes := readBinary (bytes.length + 1) bytes

end Node

end StateTree
