/-
Module: StateTree.Codec.Schema
Purpose: The stored forms of field types and presences.
-/
import StateTree.Codec.Node
import StateTree.Schema.Basic

namespace StateTree

namespace FieldType

/-- The JSON form of a type: its variant with what it is made of. -/
def toJson : FieldType → Json
  | .bool => .ofText "Bool"
  | .int => .ofText "Int"
  | .str => .ofText "Str"
  | .identifier => .ofText "Identifier"
  | .reference target => .variant "Reference" target.toJson
  | .struct name => .variant "Struct" (.ofText name)
  | .catalog entity => .variant "Catalog" (.ofText entity)
  | .listing domain => .variant "Listing" (.ofMembers [("domain", Codec.toJson domain)])
  | .sideTable domain value =>
      .variant "SideTable" (.ofMembers [("domain", Codec.toJson domain), ("value", value.toJson)])

/-- The type of a JSON value. The first argument bounds how deep types are nested; one more than the
levels that may be entered is enough. -/
def readJson : Nat → Json.Reader FieldType
  | 0 => fun _ _ => none
  | fuel + 1 => fun depth json => do
      let choice ← json.choice? depth
      match choice.name with
      | "Bool" => choice.nothing .bool
      | "Int" => choice.nothing .int
      | "Str" => choice.nothing .str
      | "Identifier" => choice.nothing .identifier
      | "Reference" => choice.holding fun depth json => (readJson fuel depth json).map .reference
      | "Struct" => choice.holding fun _ json => json.text?.map .struct
      | "Catalog" => choice.holding fun _ json => json.text?.map .catalog
      | "Listing" =>
          choice.holding fun depth json => do
            let slots ← Json.slots? ["domain"] depth json
            let domain ← slots.required 0 Codec.ofJson?
            pure (.listing domain)
      | "SideTable" =>
          choice.holding fun depth json => do
            let slots ← Json.slots? ["domain", "value"] depth json
            let domain ← slots.required 0 Codec.ofJson?
            let value ← slots.required 1 (readJson fuel)
            pure (.sideTable domain value)
      | _ => none

/-- The octets of a type. -/
def put : FieldType → Bytes
  | .bool => Binary.putWord32 0
  | .int => Binary.putWord32 1
  | .str => Binary.putWord32 2
  | .identifier => Binary.putWord32 3
  | .reference target => Binary.putWord32 4 ++ target.put
  | .struct name => Binary.putWord32 5 ++ Binary.putText name
  | .catalog entity => Binary.putWord32 6 ++ Binary.putText entity
  | .listing domain => Binary.putWord32 7 ++ Codec.put domain
  | .sideTable domain value => Binary.putWord32 8 ++ Codec.put domain ++ value.put

/-- Read a type. The first argument bounds how deep types are nested; the number of octets is
enough. -/
def readBinary : Nat → Binary.Reader FieldType
  | 0 => Binary.refuse
  | fuel + 1 => do
      let variant ← Binary.getWord32
      match variant with
      | 0 => pure .bool
      | 1 => pure .int
      | 2 => pure .str
      | 3 => pure .identifier
      | 4 => do
          let target ← readBinary fuel
          pure (.reference target)
      | 5 => do
          let name ← Binary.getText
          pure (.struct name)
      | 6 => do
          let entity ← Binary.getText
          pure (.catalog entity)
      | 7 => do
          let domain ← Codec.get
          pure (.listing domain)
      | 8 => do
          let domain ← Codec.get
          let value ← readBinary fuel
          pure (.sideTable domain value)
      | _ => Binary.refuse

instance : Codec FieldType where
  toJson := toJson
  ofJson? depth json := readJson (depth + 1) depth json
  put := put
  get bytes := readBinary (bytes.length + 1) bytes

end FieldType

instance : Codec Presence where
  toJson
    | .required => .ofText "Required"
    | .optional => .ofText "Optional"
    | .polyfill value => .variant "Polyfill" (Codec.toJson value)
  ofJson? depth json := do
    let choice ← json.choice? depth
    match choice.name with
    | "Required" => choice.nothing .required
    | "Optional" => choice.nothing .optional
    | "Polyfill" => choice.holding fun depth json => (Codec.ofJson? depth json).map .polyfill
    | _ => none
  put
    | .required => Binary.putWord32 0
    | .optional => Binary.putWord32 1
    | .polyfill value => Binary.putWord32 2 ++ Codec.put value
  get := do
    let variant ← Binary.getWord32
    match variant with
    | 0 => pure .required
    | 1 => pure .optional
    | 2 => do
        let value ← Codec.get
        pure (.polyfill value)
    | _ => Binary.refuse

end StateTree
