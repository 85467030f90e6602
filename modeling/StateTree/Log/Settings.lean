/-
Module: StateTree.Log.Settings
Purpose: The settings of a replica on a log, with their defaults and the delays between attempts.
-/
import StateTree.Format.Json.Float
import StateTree.Format.Toml.Parse
import StateTree.Log.Manifest

namespace StateTree

/-- How a replica on a log behaves. Times are in milliseconds. -/
structure ReplicaSettings where
  /-- The unit of delays. -/
  timescale : Nat
  /-- What each delay grows by over the one before. -/
  patience : Binary64
  /-- How often a call is tried again before it is given up. -/
  maxRetries : Nat
  /-- How long a flush waits. -/
  flushTimeout : Nat
  /-- The format that snapshots are written in. -/
  preferredFormat : StateFormat
  /-- How many records are applied between snapshots; zero for no snapshots. -/
  compactionInterval : Nat
  /-- How often the log is read again although nothing was announced. -/
  pollInterval : Nat

namespace ReplicaSettings

/-- What settings are where nothing else is said. -/
def standard : ReplicaSettings := ⟨50, .ofFloat 2.0, 5, 30000, .json, 0, 500⟩

/-- The stored names of the settings, in the order of their declaration. -/
def names : List String :=
  ["timescale_ms", "patience", "max_retries", "flush_timeout_ms", "preferred_format",
    "compaction_interval", "poll_interval_ms"]

instance : Codec ReplicaSettings where
  toJson settings :=
    .ofMembers [("timescale_ms", .ofNat settings.timescale),
      ("patience", .ofBinary64 settings.patience), ("max_retries", .ofNat settings.maxRetries),
      ("flush_timeout_ms", .ofNat settings.flushTimeout),
      ("preferred_format", Codec.toJson settings.preferredFormat),
      ("compaction_interval", .ofNat settings.compactionInterval),
      ("poll_interval_ms", .ofNat settings.pollInterval)]
  ofJson? depth json := do
    let slots ← Json.slots? names depth json
    let timescale ← slots.orDefault 0 standard.timescale Json.word64?
    let patience ← slots.orDefault 1 standard.patience fun _ json => json.binary64?
    let maxRetries ← slots.orDefault 2 standard.maxRetries Json.word32?
    let flushTimeout ← slots.orDefault 3 standard.flushTimeout Json.word64?
    let preferredFormat ← slots.orDefault 4 standard.preferredFormat Codec.ofJson?
    let compactionInterval ← slots.orDefault 5 standard.compactionInterval Json.word64?
    let pollInterval ← slots.orDefault 6 standard.pollInterval Json.word64?
    pure
      ⟨timescale, patience, maxRetries, flushTimeout, preferredFormat, compactionInterval,
        pollInterval⟩
  put settings :=
    Binary.putWord64 settings.timescale ++ Binary.putWord64 settings.patience.bits.toNat
      ++ Binary.putWord32 settings.maxRetries ++ Binary.putWord64 settings.flushTimeout
      ++ Codec.put settings.preferredFormat ++ Binary.putWord64 settings.compactionInterval
      ++ Binary.putWord64 settings.pollInterval
  get := do
    let timescale ← Binary.getWord64
    let patience ← Binary.getWord64
    let maxRetries ← Binary.getWord32
    let flushTimeout ← Binary.getWord64
    let preferredFormat ← Codec.get
    let compactionInterval ← Binary.getWord64
    let pollInterval ← Binary.getWord64
    pure
      ⟨timescale, ⟨UInt64.ofNat patience⟩, maxRetries, flushTimeout, preferredFormat,
        compactionInterval, pollInterval⟩

/-! ## As a TOML document -/

/-- A natural number below a bound. -/
def natBelow? (bound : Nat) : Toml → Option Nat
  | .integer n => if 0 ≤ n ∧ n < bound then some n.toNat else none
  | _ => none

/-- A floating-point number; an integer is one, too. -/
def binary64? : Toml → Option Binary64
  | .float x => some (.ofFloat x)
  | .integer n => some (.ofFloat (Float.ofInt n))
  | _ => none

/-- A format by its name. -/
def formatNamed? (name : String) : Option StateFormat :=
  [StateFormat.json, StateFormat.binary].find? fun format => format.text == name

/-- A format: its name, or a table of that name with nothing in it. -/
def format? : Toml → Option StateFormat
  | .string name => formatNamed? name
  | .table _ [(name, .table _ [])] => formatNamed? name
  | .table _ [(name, .array [])] => formatNamed? name
  | _ => none

/-- A setting of a document, or its default if the document does not have it. -/
def setting {α : Type} (entries : Toml.Entries) (name : String) (standard : α)
    (value? : Toml → Option α) : Option α :=
  match entries.lookup name with
  | some value => value? value
  | none => some standard

/-- The settings of a TOML document. Keys that are no settings are passed over. -/
def ofToml? (text : String) : Option ReplicaSettings := do
  let entries ← Toml.parse? text
  let timescale ← setting entries "timescale_ms" standard.timescale (natBelow? UInt64.size)
  let patience ← setting entries "patience" standard.patience binary64?
  let maxRetries ← setting entries "max_retries" standard.maxRetries (natBelow? UInt32.size)
  let flushTimeout ←
    setting entries "flush_timeout_ms" standard.flushTimeout (natBelow? UInt64.size)
  let preferredFormat ← setting entries "preferred_format" standard.preferredFormat format?
  let compactionInterval ←
    setting entries "compaction_interval" standard.compactionInterval (natBelow? UInt64.size)
  let pollInterval ←
    setting entries "poll_interval_ms" standard.pollInterval (natBelow? UInt64.size)
  pure
    ⟨timescale, patience, maxRetries, flushTimeout, preferredFormat, compactionInterval,
      pollInterval⟩

/-! ## Delays -/

/-- A power by repeated squaring; the first argument bounds the number of binary digits of the
exponent. -/
def power : Nat → Float → Nat → Float → Float
  | 0, _, _, product => product
  | fuel + 1, base, exponent, product =>
      let product := if exponent % 2 = 1 then product * base else product
      if exponent / 2 = 0 then product else power fuel (base * base) (exponent / 2) product

/-- What the delay before an attempt has grown by. Delays never shrink, and they stop growing after
sixteen attempts. -/
def growth (settings : ReplicaSettings) (attempt : Nat) : Float :=
  let patience := settings.patience.toFloat
  let base := if patience > 1.0 then patience else 1.0
  power 5 base (min attempt 16) 1.0

/-- The delay before an attempt to try again, the first of which has the number zero. -/
def backoff (settings : ReplicaSettings) (attempt : Nat) : Nat :=
  ((UInt64.ofNat settings.timescale).toFloat * settings.growth attempt).round.toUInt64.toNat

end ReplicaSettings

end StateTree
