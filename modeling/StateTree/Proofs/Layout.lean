/-
Module: StateTree.Proofs.Layout
Purpose: Reading back the binary layout. A reader of a value takes the octets that were written for
  it from the front of any others, and leaves those.
-/
import StateTree.Format.Binary
import Mathlib.Algebra.Group.Nat.Defs

namespace StateTree.Binary

variable {α β : Type}

/-- A reader takes exactly these octets from the front, and gives a value. -/
def Reads (read : Reader α) (bytes : Bytes) (value : α) : Prop :=
  ∀ rest, read (bytes ++ rest) = some (value, rest)

theorem reads_pure (value : α) : Reads (pure value) [] value := fun _ => rfl

/-- One reader after another reads one value after another. -/
theorem Reads.bind {first : Reader α} {next : α → Reader β} {front back : Bytes} {value : α}
    {result : β} (reads : Reads first front value) (onward : Reads (next value) back result) :
    Reads (first >>= next) (front ++ back) result := by
  intro rest
  change (first (front ++ back ++ rest)).bind (fun taken => next taken.1 taken.2) = _
  rw [List.append_assoc, reads]
  exact onward rest

/-- What is made of a value that was read takes no octets of its own. -/
theorem Reads.map {first : Reader α} {next : α → Reader β} {bytes : Bytes} {value : α} {result : β}
    (reads : Reads first bytes value) (onward : next value = pure result) :
    Reads (first >>= next) bytes result := by
  have whole := reads.bind (onward ▸ reads_pure result)
  rwa [List.append_nil] at whole

/-! ### Numbers -/

theorem length_littleEndian (width n : Nat) : (littleEndian width n).length = width := by
  induction width generalizing n with
  | zero => rfl
  | succ width ih => rw [littleEndian, List.length_cons, ih]

/-- A number is read back from its octets if there are enough of them. -/
theorem ofLittleEndian_littleEndian {width n : Nat} (small : n < 256 ^ width) :
    ofLittleEndian (littleEndian width n) = n := by
  induction width generalizing n with
  | zero =>
      rw [Nat.pow_zero, Nat.lt_one_iff] at small
      rw [small]
      rfl
  | succ width ih =>
      have high : n / 256 < 256 ^ width := by
        rw [Nat.div_lt_iff_lt_mul (by decide)]
        rwa [Nat.pow_succ] at small
      have low : (UInt8.ofNat (n % 256)).toNat = n % 256 := by
        rw [UInt8.toNat_ofNat']
        omega
      rw [littleEndian, ofLittleEndian, ih high, low]
      omega

/-- So many octets are split off the front. -/
theorem reads_raw (bytes : Bytes) : Reads (getRaw bytes.length) bytes bytes := by
  intro rest
  unfold getRaw
  induction bytes with
  | nil => cases rest <;> rfl
  | cons b bytes ih =>
      rw [List.length_cons, List.cons_append, splitAt?, ih]
      rfl

theorem reads_littleEndian {width n : Nat} (small : n < 256 ^ width) :
    Reads (getRaw width >>= fun bytes => pure (ofLittleEndian bytes)) (littleEndian width n) n := by
  have raw := reads_raw (littleEndian width n)
  rw [length_littleEndian] at raw
  apply raw.map
  rw [ofLittleEndian_littleEndian small]

/-- A word is read back from its four octets. -/
theorem reads_word32 {n : Nat} (small : n < UInt32.size) : Reads getWord32 (putWord32 n) n :=
  reads_littleEndian small

theorem reads_word64 {n : Nat} (small : n < UInt64.size) : Reads getWord64 (putWord64 n) n :=
  reads_littleEndian small

theorem reads_int (n : Int64) : Reads getInt (putInt n) n := by
  apply (reads_word64 n.toUInt64.toNat_lt).map
  rw [UInt64.ofNat_toNat]
  rfl

theorem reads_bool (value : Bool) : Reads getBool (putBool value) value := by
  intro rest
  cases value <;> rfl

/-! ### Texts and sequences -/

/-- Octets are read back from their number and themselves. -/
theorem reads_bytes {bytes : Bytes} (short : bytes.length < UInt64.size) :
    Reads getBytes (putBytes bytes) bytes :=
  (reads_word64 short).bind (reads_raw bytes)

theorem reads_text {text : String} (short : (Text.utf8 text).length < UInt64.size) :
    Reads getText (putText text) text := by
  apply (reads_bytes short).map
  rw [Text.ofUtf8?_utf8]
  rfl

/-- Items are read back one after the other. -/
theorem reads_times {read : Reader α} {put : α → Bytes} {items : List α}
    (each : ∀ item ∈ items, Reads read (put item) item) :
    Reads (times read items.length) (items.flatMap put) items := by
  induction items with
  | nil => exact reads_pure []
  | cons item rest ih =>
      obtain ⟨first, others⟩ := List.forall_mem_cons.mp each
      rw [List.flatMap_cons]
      exact first.bind ((ih others).map rfl)

/-- A sequence is read back from its length and its items. -/
theorem reads_list {read : Reader α} {put : α → Bytes} {items : List α}
    (short : items.length < UInt64.size) (each : ∀ item ∈ items, Reads read (put item) item) :
    Reads (getList read) (putList put items) items :=
  (reads_word64 short).bind (reads_times each)

end StateTree.Binary
