/-
Module: StateTree.Proofs.Segment
Purpose: Scanning a segment. The frames of records that can be stored are found again one after the
  other, each where it begins, up to the first place where there is no intact frame.
-/
import StateTree.Log.Frame
import StateTree.Proofs.RecordText

namespace StateTree.Frame

variable {record : LogRecord}

/-! ### One frame -/

theorem ofRecord_eq (record : LogRecord) : ofRecord record =
    Binary.putWord32 (Codec.put record).length ++
      (Binary.putWord32 (Crc32.checksum (Codec.put record)).toNat ++ Codec.put record) :=
  List.append_assoc _ _ _

theorem length_ofRecord (record : LogRecord) :
    (ofRecord record).length = headerSize + (Codec.put record).length := by
  simp only [ofRecord_eq, List.length_append, Binary.putWord32, Binary.length_littleEndian,
    headerSize]
  omega

/-- A record is not written as nothing: its number alone takes eight octets. -/
theorem length_put_pos (record : LogRecord) : 0 < (Codec.put record).length := by
  have written : Codec.put record = Binary.putWord64 record.number ++
      (Codec.put record.correlation ++ Codec.put record.body) := List.append_assoc _ _ _
  rw [written, List.length_append, Node.length_putWord64]
  omega

/-- The header of a frame says where its payload ends. -/
theorem split?_ofRecord (short : (Codec.put record).length < UInt32.size) (rest : Bytes) :
    split? (ofRecord record ++ rest) =
      some (Crc32.checksum (Codec.put record), Codec.put record) := by
  have length := Binary.reads_word32 short
  have sum := Binary.reads_word32 (Crc32.checksum (Codec.put record)).toNat_lt
  have payload := Binary.reads_raw (Codec.put record) rest
  rw [Binary.getRaw] at payload
  have some := length_put_pos record
  rw [ofRecord_eq, List.append_assoc, List.append_assoc]
  simp only [split?, length _, sum _, Option.bind_eq_bind, Option.bind_some,
    if_neg (Nat.ne_of_gt some), payload, UInt32.ofNat_toNat]
  rfl

/-- A frame at the front of octets is found. -/
theorem first?_ofRecord (storable : record.Storable) (offset : Nat) (rest : Bytes) :
    first? offset (ofRecord record ++ rest) = some (record, (ofRecord record).length) := by
  have read : Codec.ofBinary? (Codec.put record) = some record :=
    Codec.ofBinary?_of_reads (record.reads storable)
  simp only [first?, split?_ofRecord storable.short, Option.bind_eq_bind, Option.bind_some, decode,
    if_true, read, length_ofRecord]
  rfl

/-- Whether there is a frame at the front of octets does not depend on where they begin. -/
theorem first?_eq_none_iff (offset other : Nat) (bytes : Bytes) :
    first? offset bytes = none ↔ first? other bytes = none := by
  unfold first?
  cases split? bytes with
  | none => exact Iff.rfl
  | some parts =>
      obtain ⟨expected, payload⟩ := parts
      simp only [Option.bind_eq_bind, Option.bind_some, decode]
      by_cases same : Crc32.checksum payload = expected
      · rw [if_pos same, if_pos same]
      · simp [same]

/-! ### Frames one after the other -/

/-- The octets of the frames of records. -/
def ofRecords (records : List LogRecord) : Bytes := records.flatMap ofRecord

/-- Records with the offsets of their frames, where the first one begins at the offset given. -/
def placed : Nat → List LogRecord → List (Nat × LogRecord)
  | _, [] => []
  | offset, record :: rest => (offset, record) :: placed (offset + (ofRecord record).length) rest

theorem length_ofRecords_cons (record : LogRecord) (rest : List LogRecord) :
    (ofRecords (record :: rest)).length = (ofRecord record).length + (ofRecords rest).length :=
  List.length_append

theorem ofRecords_append (front back : List LogRecord) :
    ofRecords (front ++ back) = ofRecords front ++ ofRecords back :=
  List.flatMap_append

theorem placed_append (offset : Nat) (front back : List LogRecord) :
    placed offset (front ++ back) =
      placed offset front ++ placed (offset + (ofRecords front).length) back := by
  induction front generalizing offset with
  | nil => rfl
  | cons record front ih =>
      rw [List.cons_append, placed, ih, placed, length_ofRecords_cons, Nat.add_assoc,
        List.cons_append]

/-- The frame of a record that comes last begins where those before it end. -/
theorem placed_concat (records : List LogRecord) (latest : LogRecord) :
    placed 0 (records ++ [latest]) =
      placed 0 records ++ [((ofRecords records).length, latest)] := by
  rw [placed_append, Nat.zero_add]
  rfl

theorem map_snd_placed (offset : Nat) (records : List LogRecord) :
    (placed offset records).map Prod.snd = records := by
  induction records generalizing offset with
  | nil => rfl
  | cons record rest ih => rw [placed, List.map_cons, ih]

theorem length_placed (offset : Nat) (records : List LogRecord) :
    (placed offset records).length = records.length := by
  rw [← List.length_map Prod.snd, map_snd_placed]

/-- Where frames begin, counted from further on. -/
theorem placed_sub (cut offset : Nat) (records : List LogRecord) :
    (placed (cut + offset) records).map (fun entry => (entry.1 - cut, entry.2)) =
      placed offset records := by
  induction records generalizing offset with
  | nil => rfl
  | cons record rest ih =>
      rw [placed, List.map_cons, Nat.add_assoc, ih, placed, Nat.add_sub_cancel_left]

section Split

variable {position : Nat} {gone kept : List LogRecord}

theorem filter_placed_none (gone_lt : ∀ record ∈ gone, record.number < position) (offset : Nat) :
    ((placed offset gone).filter fun entry => decide (position ≤ entry.2.number)) = [] := by
  induction gone generalizing offset with
  | nil => rfl
  | cons record rest ih =>
      obtain ⟨first, others⟩ := List.forall_mem_cons.mp gone_lt
      rw [placed, List.filter_cons, if_neg (by simpa using first), ih others]

theorem filter_placed_all (le_kept : ∀ record ∈ kept, position ≤ record.number) (offset : Nat) :
    ((placed offset kept).filter fun entry => decide (position ≤ entry.2.number)) =
      placed offset kept := by
  induction kept generalizing offset with
  | nil => rfl
  | cons record rest ih =>
      obtain ⟨first, others⟩ := List.forall_mem_cons.mp le_kept
      rw [placed, List.filter_cons, if_pos (by simpa using first), ih others]

/-- The frames from a number on. -/
theorem filter_placed (gone_lt : ∀ record ∈ gone, record.number < position)
    (le_kept : ∀ record ∈ kept, position ≤ record.number) :
    ((placed 0 (gone ++ kept)).filter fun entry => decide (position ≤ entry.2.number)) =
      placed (ofRecords gone).length kept := by
  rw [placed_append, List.filter_append, filter_placed_none gone_lt, filter_placed_all le_kept,
    Nat.zero_add, List.nil_append]

/-- The first of the frames from a number on. -/
theorem find?_placed (gone_lt : ∀ record ∈ gone, record.number < position)
    (le_kept : ∀ record ∈ kept, position ≤ record.number) :
    ((placed 0 (gone ++ kept)).find? fun entry => decide (position ≤ entry.2.number)) =
      kept.head?.map fun record => ((ofRecords gone).length, record) := by
  rw [← List.head?_filter, filter_placed gone_lt le_kept]
  cases kept <;> rfl

end Split

theorem length_le_length_ofRecords (records : List LogRecord) :
    records.length ≤ (ofRecords records).length := by
  apply Node.length_le_flatMap
  intro record _
  have := length_put_pos record
  rw [length_ofRecord]
  omega

/-- A scan finds every frame up to where there is no intact one. -/
theorem scanFrom_ofRecords {records : List LogRecord}
    (storable : ∀ record ∈ records, record.Storable) {rest : Bytes} (torn : first? 0 rest = none)
    {fuel : Nat} (enough : records.length ≤ fuel) (offset : Nat) :
    scanFrom fuel offset (ofRecords records ++ rest) =
      ⟨placed offset records, offset + (ofRecords records).length⟩ := by
  induction records generalizing fuel offset with
  | nil =>
      have none := (first?_eq_none_iff offset 0 rest).mpr torn
      cases fuel with
      | zero => rfl
      | succ fuel =>
          rw [scanFrom, ofRecords, List.flatMap_nil, List.nil_append, none]
          rfl
  | cons record records ih =>
      obtain ⟨first, others⟩ := List.forall_mem_cons.mp storable
      cases fuel with
      | zero => cases enough
      | succ fuel =>
          have later := ih others (Nat.le_of_succ_le_succ enough)
            (offset + (ofRecord record).length)
          have split : ofRecords (record :: records) ++ rest =
              ofRecord record ++ (ofRecords records ++ rest) := List.append_assoc _ _ _
          rw [split, scanFrom, first?_ofRecord first]
          simp only [List.drop_left, later]
          rw [placed, length_ofRecords_cons, Nat.add_assoc]

/-- A segment of frames with something torn after them is scanned up to that. -/
theorem scan_ofRecords {records : List LogRecord}
    (storable : ∀ record ∈ records, record.Storable) {rest : Bytes} (torn : first? 0 rest = none) :
    scan (ofRecords records ++ rest) = ⟨placed 0 records, (ofRecords records).length⟩ := by
  have enough : records.length ≤ (ofRecords records ++ rest).length := by
    have := length_le_length_ofRecords records
    rw [List.length_append]
    omega
  rw [scan, scanFrom_ofRecords storable torn enough, Nat.zero_add]

/-! ### Damage -/

theorem splitAt?_of_short {count : Nat} {bytes : Bytes} (short : bytes.length < count) :
    Binary.splitAt? count bytes = none := by
  induction bytes generalizing count with
  | nil =>
      cases count with
      | zero => cases short
      | succ count => rfl
  | cons b rest ih =>
      cases count with
      | zero => cases short
      | succ count =>
          rw [List.length_cons, Nat.add_lt_add_iff_right] at short
          rw [Binary.splitAt?, ih short]
          rfl

theorem getWord32_of_short {bytes : Bytes} (short : bytes.length < 4) :
    Binary.getWord32 bytes = none := by
  change (Binary.splitAt? 4 bytes).bind _ = none
  rw [splitAt?_of_short short]
  rfl

/-- Octets of a word, and the rest cut to a length. -/
theorem take_word32 (n count : Nat) (rest : Bytes) (enough : 4 ≤ count) :
    (Binary.putWord32 n ++ rest).take count = Binary.putWord32 n ++ rest.take (count - 4) := by
  have length : (Binary.putWord32 n).length = 4 := Binary.length_littleEndian 4 n
  rw [List.take_append, length, List.take_of_length_le (by omega)]

/-- A frame that was cut is no intact one. -/
theorem first?_take (short : (Codec.put record).length < UInt32.size) {count : Nat}
    (cut : count < (ofRecord record).length) (offset : Nat) :
    first? offset ((ofRecord record).take count) = none := by
  suffices split? ((ofRecord record).take count) = none by
    rw [first?, this]
    rfl
  rw [length_ofRecord, headerSize] at cut
  have length := Binary.reads_word32 short
  have sum := Binary.reads_word32 (Crc32.checksum (Codec.put record)).toNat_lt
  rw [ofRecord_eq]
  unfold split?
  rcases Nat.lt_or_ge count 4 with early | late
  · rw [getWord32_of_short (by rw [List.length_take]; omega)]
    rfl
  · rw [take_word32 _ _ _ late, length]
    simp only [Option.bind_eq_bind, Option.bind_some]
    rcases Nat.lt_or_ge count 8 with early | later
    · rw [getWord32_of_short (by rw [List.length_take]; omega)]
      rfl
    · have some := length_put_pos record
      have none : Binary.splitAt? (Codec.put record).length
          ((Codec.put record).take (count - 4 - 4)) = none := by
        apply splitAt?_of_short
        rw [List.length_take]
        omega
      rw [take_word32 _ _ _ (by omega), sum]
      simp only [Option.bind_some, if_neg (Nat.ne_of_gt some), none, Option.bind_none]

/-- The frame of a record with another payload in it. -/
def withPayload (record : LogRecord) (payload : Bytes) : Bytes :=
  Binary.putWord32 (Codec.put record).length ++
    (Binary.putWord32 (Crc32.checksum (Codec.put record)).toNat ++ payload)

/-- A frame is no intact one with another payload of its length in it that has another checksum. -/
theorem first?_withPayload (short : (Codec.put record).length < UInt32.size) {payload : Bytes}
    (length : payload.length = (Codec.put record).length)
    (altered : Crc32.checksum payload ≠ Crc32.checksum (Codec.put record)) (offset : Nat)
    (rest : Bytes) : first? offset (withPayload record payload ++ rest) = none := by
  have size := Binary.reads_word32 short
  have sum := Binary.reads_word32 (Crc32.checksum (Codec.put record)).toNat_lt
  have content := Binary.reads_raw payload rest
  rw [Binary.getRaw, length] at content
  have some := length_put_pos record
  rw [withPayload, List.append_assoc, List.append_assoc]
  simp only [first?, split?, size _, sum _, Option.bind_eq_bind, Option.bind_some,
    if_neg (Nat.ne_of_gt some), content, UInt32.ofNat_toNat, Option.pure_def, decode,
    if_neg altered]

/-- What a crash may leave of the frames of records: they are cut at some octet, or one of them is
damaged, so that there is no intact frame in its place. -/
inductive Damaged (records : List LogRecord) : Bytes → Prop
  | cut (length : Nat) : Damaged records ((ofRecords records).take length)
  | frame {front back : List LogRecord} {record : LogRecord}
      (whole : records = front ++ record :: back) {rest : Bytes} (torn : first? 0 rest = none) :
      Damaged records (ofRecords front ++ rest)

/-- Octets of a payload may be altered, as long as the checksum tells. -/
theorem Damaged.payload {front back : List LogRecord}
    (short : (Codec.put record).length < UInt32.size) {payload : Bytes}
    (length : payload.length = (Codec.put record).length)
    (altered : Crc32.checksum payload ≠ Crc32.checksum (Codec.put record)) :
    Damaged (front ++ record :: back)
      (ofRecords front ++ (withPayload record payload ++ ofRecords back)) :=
  .frame rfl (first?_withPayload short length altered 0 (ofRecords back))

/-- A crash leaves the frames of the first few records, with nothing intact after them. -/
theorem Damaged.spec {records : List LogRecord} {bytes : Bytes} (damaged : Damaged records bytes)
    (storable : ∀ record ∈ records, record.Storable) :
    ∃ front back rest, records = front ++ back ∧ bytes = ofRecords front ++ rest ∧
      first? 0 rest = none := by
  cases damaged with
  | frame whole torn => exact ⟨_, _, _, whole, rfl, torn⟩
  | cut length =>
      induction records generalizing length with
      | nil => exact ⟨[], [], [], rfl, by simp [ofRecords], rfl⟩
      | cons record rest ih =>
          obtain ⟨first, others⟩ := List.forall_mem_cons.mp storable
          rcases Nat.lt_or_ge length (ofRecord record).length with early | late
          · refine ⟨[], record :: rest, (ofRecord record).take length, rfl, ?_,
              first?_take first.short early 0⟩
            rw [ofRecords, List.flatMap_cons, List.take_append_of_le_length (Nat.le_of_lt early)]
            rfl
          · obtain ⟨front, back, torn, whole, left, none⟩ :=
              ih others (length - (ofRecord record).length)
            refine ⟨record :: front, back, torn, by rw [whole]; rfl, ?_, none⟩
            have split (records : List LogRecord) :
                ofRecords (record :: records) = ofRecord record ++ ofRecords records := rfl
            rw [split, split, List.append_assoc, ← left, List.take_append,
              List.take_of_length_le late]

end StateTree.Frame
