/-
Module: StateTree.Log.Manifest
Purpose: What a log keeps beside its records: the manifest, which says how the stored state is laid
  out, and the state document, a snapshot of the whole tree as of a position in the log.
-/
import StateTree.Codec.Node

namespace StateTree

/-- How a snapshot of a tree is encoded. -/
inductive StateFormat where
  /-- Human-readable. -/
  | json
  /-- Compact. -/
  | binary
deriving DecidableEq

namespace StateFormat

/-- The stored name of a format. -/
def text : StateFormat → String
  | .json => "json"
  | .binary => "bincode"

/-- The name of a format in messages about manifests. -/
def title : StateFormat → String
  | .json => "Json"
  | .binary => "Bincode"

instance : Codec StateFormat := .ofNames [(.json, text .json), (.binary, text .binary)]

/-- A tree in a format. -/
def encode : StateFormat → Node → Bytes
  | .json, root => Codec.json root
  | .binary, root => Codec.put root

/-- The tree that octets in a format stand for. -/
def decode? : StateFormat → Bytes → Option Node
  | .json, bytes => Codec.ofJsonText? bytes
  | .binary, bytes => Codec.ofBinary? bytes

end StateFormat

/-- How the stored state of a log is laid out. -/
structure Manifest where
  version : Nat
  format : StateFormat
deriving DecidableEq

namespace Manifest

/-- The version of manifests that is understood here; there is no way from or to any other. -/
def currentVersion : Nat := 1

/-- The manifest of a format. -/
def new (format : StateFormat) : Manifest := ⟨currentVersion, format⟩

/-- A manifest as messages show it. -/
def text (manifest : Manifest) : String :=
  s!"Manifest \x7b version: {manifest.version}, format: {manifest.format.title} \x7d"

instance : Codec Manifest where
  toJson manifest :=
    .ofMembers [("version", .ofNat manifest.version), ("format", Codec.toJson manifest.format)]
  ofJson? depth json := do
    let slots ← Json.slots? ["version", "format"] depth json
    let version ← slots.required 0 Json.word32?
    let format ← slots.required 1 Codec.ofJson?
    pure ⟨version, format⟩
  put manifest := Binary.putWord32 manifest.version ++ Codec.put manifest.format
  get := do
    let version ← Binary.getWord32
    let format ← Codec.get
    pure ⟨version, format⟩

end Manifest

/-- A snapshot of the whole tree. `position` is the number of the first record that is not folded
into it; `revision` grows by one with every replacement. The document names its own format. -/
structure StateDocument where
  revision : Nat
  position : Nat
  format : StateFormat
  bytes : Bytes
deriving DecidableEq

namespace StateDocument

/-- The document of a tree. -/
def ofNode (root : Node) (format : StateFormat) (revision position : Nat) : StateDocument :=
  ⟨revision, position, format, format.encode root⟩

/-- The tree of a document. -/
def node? (document : StateDocument) : Option Node := document.format.decode? document.bytes

instance : Codec StateDocument where
  toJson document :=
    .ofMembers [("revision", .ofNat document.revision), ("position", .ofNat document.position),
      ("format", Codec.toJson document.format),
      ("bytes", .array (document.bytes.map fun b => .ofNat b.toNat))]
  ofJson? depth json := do
    let slots ← Json.slots? ["revision", "position", "format", "bytes"] depth json
    let revision ← slots.required 0 Json.word64?
    let position ← slots.required 1 Json.word64?
    let format ← slots.required 2 Codec.ofJson?
    let bytes ← slots.required 3 (Json.list? Json.byte?)
    pure ⟨revision, position, format, bytes⟩
  put document :=
    Binary.putWord64 document.revision ++ Binary.putWord64 document.position
      ++ Codec.put document.format ++ Binary.putBytes document.bytes
  get := do
    let revision ← Binary.getWord64
    let position ← Binary.getWord64
    let format ← Codec.get
    let bytes ← Binary.getBytes
    pure ⟨revision, position, format, bytes⟩

end StateDocument

end StateTree
