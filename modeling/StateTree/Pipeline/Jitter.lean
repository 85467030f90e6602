/-
Module: StateTree.Pipeline.Jitter
Purpose: How long the calls of a pipeline are held back at random. The delays are a matter of the
  running system; what is kept here is the configuration.
-/
import StateTree.Codec.Basic

namespace StateTree

/-- The mean of the delays in microseconds, and a seed for delays that can be repeated. -/
structure JitterConfig where
  mean : Nat
  seed : Option Nat
deriving DecidableEq

namespace JitterConfig

/-- Delays of a mean in microseconds. -/
def ofMean (mean : Nat) : JitterConfig := ⟨mean, none⟩

/-- Delays that are the same in each run. -/
def seeded (config : JitterConfig) (seed : Nat) : JitterConfig := { config with seed := some seed }

instance : Codec JitterConfig where
  toJson config :=
    .ofMembers [("mean_delay_us", .ofNat config.mean),
      ("seed", (config.seed.map Json.ofNat).getD .null)]
  ofJson? depth json := do
    let slots ← Json.slots? ["mean_delay_us", "seed"] depth json
    let mean ← slots.required 0 Json.word64?
    let seed ← slots.nullable 1 Json.word64?
    pure ⟨mean, seed⟩
  put config := Binary.putWord64 config.mean ++ Binary.putOption Binary.putWord64 config.seed
  get := do
    let mean ← Binary.getWord64
    let seed ← Binary.getOption Binary.getWord64
    pure ⟨mean, seed⟩

end JitterConfig

end StateTree
