/-
Module: StateTree.Proofs.Scanning
Purpose: What a scan finds in any octets whatever: the records of the longest run of intact frames
  at their front, and where that run ends. A frame written there is found by the next scan.
-/
import StateTree.Proofs.FileStore

namespace StateTree

/-! ### Words at the front of octets -/

namespace Binary

theorem splitAt?_eq_some_iff {count : Nat} {bytes front rest : Bytes} :
    splitAt? count bytes = some (front, rest) ↔ bytes = front ++ rest ∧ front.length = count := by
  constructor
  · intro split
    induction count generalizing bytes front with
    | zero =>
        cases split
        exact ⟨rfl, rfl⟩
    | succ count ih =>
        cases bytes with
        | nil => cases split
        | cons b bytes =>
            obtain ⟨⟨most, left⟩, found, same⟩ := Option.map_eq_some_iff.mp split
            cases same
            obtain ⟨rfl, rfl⟩ := ih found
            exact ⟨rfl, rfl⟩
  · rintro ⟨rfl, rfl⟩
    exact reads_raw front rest

theorem littleEndian_ofLittleEndian (bytes : Bytes) :
    littleEndian bytes.length (ofLittleEndian bytes) = bytes := by
  induction bytes with
  | nil => rfl
  | cons b rest ih =>
      have small := b.toNat_lt
      have low : (b.toNat + 256 * ofLittleEndian rest) % 256 = b.toNat := by omega
      have high : (b.toNat + 256 * ofLittleEndian rest) / 256 = ofLittleEndian rest := by omega
      rw [List.length_cons, ofLittleEndian, littleEndian, low, high, ih, UInt8.ofNat_toNat]

theorem ofLittleEndian_lt (bytes : Bytes) : ofLittleEndian bytes < 256 ^ bytes.length := by
  induction bytes with
  | nil => exact Nat.one_pos
  | cons b rest ih =>
      have small := b.toNat_lt
      rw [List.length_cons, ofLittleEndian, Nat.pow_succ]
      omega

/-- A word is read exactly where its octets are. -/
theorem getWord32_eq_some_iff {bytes rest : Bytes} {n : Nat} :
    getWord32 bytes = some (n, rest) ↔ bytes = putWord32 n ++ rest ∧ n < UInt32.size := by
  constructor
  · intro read
    change (splitAt? 4 bytes).bind (fun parts => some (ofLittleEndian parts.1, parts.2)) = _ at read
    obtain ⟨⟨front, left⟩, split, same⟩ := Option.bind_eq_some_iff.mp read
    cases same
    obtain ⟨rfl, four⟩ := splitAt?_eq_some_iff.mp split
    have small := ofLittleEndian_lt front
    rw [four] at small
    refine ⟨?_, small⟩
    rw [putWord32, ← four, littleEndian_ofLittleEndian]
  · rintro ⟨rfl, small⟩
    exact reads_word32 small rest

end Binary

namespace Frame

/-! ### Intact frames -/

/-- An intact frame: a payload that is not empty, that a length in four octets can count, and that
decodes. -/
@[ext]
structure Intact where
  record : LogRecord
  payload : Bytes
  present : payload ≠ []
  counted : payload.length < UInt32.size
  decodes : Codec.ofBinary? payload = some record

namespace Intact

/-- The octets of a frame: the length of the payload, its checksum, and the payload. -/
def octets (frame : Intact) : Bytes :=
  Binary.putWord32 frame.payload.length ++
    (Binary.putWord32 (Crc32.checksum frame.payload).toNat ++ frame.payload)

/-- The frame that is written for a record. -/
def ofStorable {record : LogRecord} (storable : record.Storable) : Intact :=
  ⟨record, Codec.put record, List.ne_nil_of_length_pos (length_put_pos record), storable.short,
    Codec.ofBinary?_of_reads (record.reads storable)⟩

theorem octets_ofStorable {record : LogRecord} (storable : record.Storable) :
    (ofStorable storable).octets = ofRecord record :=
  (ofRecord_eq record).symm

theorem length_octets (frame : Intact) :
    frame.octets.length = headerSize + frame.payload.length := by
  simp only [octets, List.length_append, Binary.putWord32, Binary.length_littleEndian, headerSize]
  omega

end Intact

/-- The payload and its checksum are taken apart exactly where octets begin with a length, which is
not zero, a checksum and so many octets. -/
theorem split?_eq_some_iff {bytes payload : Bytes} {sum : UInt32} :
    split? bytes = some (sum, payload) ↔ payload ≠ [] ∧ payload.length < UInt32.size ∧
      ∃ rest, bytes =
        Binary.putWord32 payload.length ++ (Binary.putWord32 sum.toNat ++ (payload ++ rest)) := by
  unfold split?
  constructor
  · intro taken
    obtain ⟨⟨length, afterLength⟩, readLength, onward⟩ := Option.bind_eq_some_iff.mp taken
    obtain ⟨⟨word, afterSum⟩, readSum, inside⟩ := Option.bind_eq_some_iff.mp onward
    obtain ⟨rfl, counted⟩ := Binary.getWord32_eq_some_iff.mp readLength
    obtain ⟨rfl, small⟩ := Binary.getWord32_eq_some_iff.mp readSum
    dsimp only at inside
    by_cases none : length = 0
    · rw [if_pos none] at inside
      cases inside
    · rw [if_neg none] at inside
      obtain ⟨⟨front, rest⟩, cut, same⟩ := Option.bind_eq_some_iff.mp inside
      cases same
      obtain ⟨rfl, rfl⟩ := Binary.splitAt?_eq_some_iff.mp cut
      refine ⟨fun empty => none (congrArg List.length empty), counted, rest, ?_⟩
      rw [UInt32.toNat_ofNat_of_lt' small]
  · rintro ⟨present, counted, rest, rfl⟩
    have length := Binary.reads_word32 counted
    have word := Binary.reads_word32 sum.toNat_lt
    have content := Binary.reads_raw payload rest
    rw [Binary.getRaw] at content
    have some : payload.length ≠ 0 := fun none => present (List.eq_nil_of_length_eq_zero none)
    simp only [length _, word _, Option.bind_eq_bind, Option.bind_some, if_neg some, content,
      UInt32.ofNat_toNat]
    rfl

/-- Octets that begin with an intact frame are taken apart there. -/
theorem Intact.split?_of_front {frame : Intact} {bytes : Bytes} (front : frame.octets <+: bytes) :
    split? bytes = some (Crc32.checksum frame.payload, frame.payload) := by
  obtain ⟨rest, rfl⟩ := front
  refine split?_eq_some_iff.mpr ⟨frame.present, frame.counted, rest, ?_⟩
  rw [Intact.octets, List.append_assoc, List.append_assoc]

/-- A frame is found exactly where octets begin with an intact one. -/
theorem first?_eq_some_iff {offset : Nat} {bytes : Bytes} {record : LogRecord} {size : Nat} :
    first? offset bytes = some (record, size) ↔ ∃ frame : Intact, frame.octets <+: bytes ∧
      frame.record = record ∧ frame.octets.length = size := by
  unfold first?
  constructor
  · intro found
    obtain ⟨⟨sum, payload⟩, split, checked⟩ := Option.bind_eq_some_iff.mp found
    obtain ⟨present, counted, rest, rfl⟩ := split?_eq_some_iff.mp split
    dsimp only [decode] at checked
    by_cases same : Crc32.checksum payload = sum
    · rw [if_pos same] at checked
      cases read : (Codec.ofBinary? payload : Option LogRecord) with
      | none =>
          rw [read] at checked
          cases checked
      | some decoded =>
          rw [read] at checked
          cases checked
          refine ⟨⟨record, payload, present, counted, read⟩, ⟨rest, ?_⟩, rfl,
            Intact.length_octets _⟩
          rw [Intact.octets, same, List.append_assoc, List.append_assoc]
    · rw [if_neg same] at checked
      cases checked
  · rintro ⟨frame, front, rfl, rfl⟩
    simp only [frame.split?_of_front front, Option.bind_eq_bind, Option.bind_some, decode, if_true,
      frame.decodes, Intact.length_octets]
    rfl

/-- Octets do not begin with two intact frames. -/
theorem Intact.eq_of_prefix {frame other : Intact} {bytes : Bytes} (front : frame.octets <+: bytes)
    (front' : other.octets <+: bytes) : frame = other := by
  have both := (split?_of_front front).symm.trans (split?_of_front front')
  have payload : frame.payload = other.payload := congrArg Prod.snd (Option.some.inj both)
  have record : some frame.record = some other.record := by
    rw [← frame.decodes, ← other.decodes, payload]
  exact Intact.ext (Option.some.inj record) payload

/-! ### Runs of frames -/

/-- The octets of frames one after the other. -/
def octets (run : List Intact) : Bytes := run.flatMap Intact.octets

/-- The records of frames with the offsets where these begin, the first one at the offset given. -/
def located : Nat → List Intact → List (Nat × LogRecord)
  | _, [] => []
  | offset, frame :: rest =>
      (offset, frame.record) :: located (offset + frame.octets.length) rest

/-- The longest run of intact frames at the front of octets. -/
structure LongestRun (run : List Intact) (bytes : Bytes) : Prop where
  front : octets run <+: bytes
  longest : ∀ other : List Intact, octets other <+: bytes → other <+: run

theorem octets_cons (frame : Intact) (rest : List Intact) :
    octets (frame :: rest) = frame.octets ++ octets rest := rfl

theorem located_append (offset : Nat) (front back : List Intact) :
    located offset (front ++ back) =
      located offset front ++ located (offset + (octets front).length) back := by
  induction front generalizing offset with
  | nil => rfl
  | cons frame front ih =>
      rw [List.cons_append, located, ih, located, octets_cons, List.length_append, Nat.add_assoc,
        List.cons_append]

/-- Where no intact frame follows a run, there is no longer run. -/
theorem longestRun_of_torn (run : List Intact) {rest : Bytes} (torn : first? 0 rest = none) :
    LongestRun run (octets run ++ rest) := by
  refine ⟨List.prefix_append _ _, fun other front => ?_⟩
  induction run generalizing other with
  | nil =>
      cases other with
      | nil => exact List.prefix_rfl
      | cons frame others =>
          have found : first? 0 rest = some (frame.record, frame.octets.length) :=
            first?_eq_some_iff.mpr ⟨frame, (List.prefix_append _ _).trans front, rfl, rfl⟩
          rw [torn] at found
          cases found
  | cons frame run ih =>
      cases other with
      | nil => exact List.nil_prefix
      | cons first others =>
          rw [octets_cons, octets_cons, List.append_assoc] at front
          have same : first = frame :=
            Intact.eq_of_prefix ((List.prefix_append _ _).trans front) (List.prefix_append _ _)
          subst same
          have later := (List.prefix_append_right_inj _).mp front
          exact (List.prefix_cons_inj _).mpr (ih others later)

theorem LongestRun.unique {run other : List Intact} {bytes : Bytes} (longest : LongestRun run bytes)
    (longest' : LongestRun other bytes) : run = other :=
  (longest'.longest run longest.front).eq_of_length_le
    (longest.longest other longest'.front).length_le

/-- A scan with enough fuel finds a run after which there is no intact frame. -/
theorem scanFrom_spec {fuel : Nat} {bytes : Bytes} (enough : bytes.length ≤ fuel) (offset : Nat) :
    ∃ run rest, bytes = octets run ++ rest ∧ first? 0 rest = none ∧
      scanFrom fuel offset bytes = ⟨located offset run, offset + (octets run).length⟩ := by
  induction fuel generalizing bytes offset with
  | zero =>
      cases List.eq_nil_of_length_eq_zero (Nat.le_zero.mp enough)
      exact ⟨[], [], rfl, rfl, rfl⟩
  | succ fuel ih =>
      cases found : first? offset bytes with
      | none =>
          refine ⟨[], bytes, rfl, (first?_eq_none_iff offset 0 bytes).mp found, ?_⟩
          rw [scanFrom, found]
          rfl
      | some entry =>
          obtain ⟨record, size⟩ := entry
          obtain ⟨frame, ⟨left, rfl⟩, rfl, rfl⟩ := first?_eq_some_iff.mp found
          have size := frame.length_octets
          have short : left.length ≤ fuel := by
            rw [List.length_append, headerSize] at *
            omega
          obtain ⟨run, rest, rfl, torn, scanned⟩ := ih short (offset + frame.octets.length)
          refine ⟨frame :: run, rest, ?_, torn, ?_⟩
          · rw [octets_cons, List.append_assoc]
          · simp only [scanFrom, found, List.drop_left, scanned]
            rw [located, octets_cons, List.length_append, Nat.add_assoc]

/-- A scan finds the longest run of intact frames, each with its offset, and where the run ends. -/
theorem scan_spec (bytes : Bytes) : ∃ run, LongestRun run bytes ∧
    scan bytes = ⟨located 0 run, (octets run).length⟩ := by
  obtain ⟨run, rest, rfl, torn, scanned⟩ := scanFrom_spec (Nat.le_refl bytes.length) 0
  refine ⟨run, longestRun_of_torn run torn, ?_⟩
  rw [scan, scanned, Nat.zero_add]

theorem scan_octets (run : List Intact) :
    scan (octets run) = ⟨located 0 run, (octets run).length⟩ := by
  obtain ⟨found, longest, scanned⟩ := scan_spec (octets run)
  have whole : LongestRun run (octets run ++ []) := longestRun_of_torn run rfl
  rw [List.append_nil] at whole
  rw [scanned, longest.unique whole]

theorem octets_concat {record : LogRecord} (storable : record.Storable) (run : List Intact) :
    octets (run ++ [.ofStorable storable]) = octets run ++ ofRecord record := by
  rw [octets, List.flatMap_append, List.flatMap_singleton, Intact.octets_ofStorable storable]
  rfl

/-! ### Cuts -/

/-- Frames begin and end between the first offset and where the last one ends. -/
theorem bounds_of_mem_placed {offset : Nat} {records : List LogRecord} {entry : Nat × LogRecord}
    (member : entry ∈ placed offset records) : offset ≤ entry.1 ∧
      entry.1 + (ofRecord entry.2).length ≤ offset + (ofRecords records).length := by
  induction records generalizing offset with
  | nil => cases member
  | cons record rest ih =>
      rw [length_ofRecords_cons]
      rcases List.mem_cons.mp member with rfl | later
      · exact ⟨Nat.le_refl _, by dsimp only; omega⟩
      · obtain ⟨begins, ends⟩ := ih later
        omega

/-- Whether a frame at an offset ends at a place or before it. -/
def EndsBy (count : Nat) (entry : Nat × LogRecord) : Prop :=
  entry.1 + (ofRecord entry.2).length ≤ count

instance (count : Nat) : DecidablePred (EndsBy count) := fun _ => Nat.decLe _ _

/-- Of frames that are cut somewhere a scan finds those that end there or before. -/
theorem scan_take_ofRecords {records : List LogRecord}
    (storable : ∀ record ∈ records, record.Storable) (count : Nat) :
    (scan ((ofRecords records).take count)).records =
      (placed 0 records).filter fun entry => decide (EndsBy count entry) := by
  obtain ⟨front, back, rest, rfl, left, torn⟩ := (Damaged.cut count).spec storable
  have whole : (ofRecords front).length ≤ count := by
    have length := congrArg List.length left
    rw [List.length_append, List.length_take] at length
    omega
  have kept : ∀ entry ∈ placed 0 front, EndsBy count entry := by
    intro entry member
    have ends := (bounds_of_mem_placed member).2
    rw [Nat.zero_add] at ends
    exact Nat.le_trans ends whole
  have lost : ∀ entry ∈ placed (0 + (ofRecords front).length) back, ¬ EndsBy count entry := by
    cases back with
    | nil => nofun
    | cons record back =>
        have first := (List.forall_mem_append.mp storable).2 record List.mem_cons_self
        -- Otherwise the frame of this record would be whole and come right after those in front.
        have beyond : count < (ofRecords front).length + (ofRecord record).length := by
          by_contra inside
          have split : ofRecords (front ++ record :: back) =
              ofRecords front ++ (ofRecord record ++ ofRecords back) := ofRecords_append _ _
          rw [split, List.take_append, List.take_of_length_le whole, List.take_append,
            List.take_of_length_le (by omega)] at left
          have found := first?_ofRecord first 0 ((ofRecords back).take
            (count - (ofRecords front).length - (ofRecord record).length))
          rw [List.append_cancel_left left, torn] at found
          cases found
        intro entry member
        rw [Nat.zero_add] at member
        rcases List.mem_cons.mp member with rfl | later
        · exact Nat.not_le_of_gt beyond
        · have begins := (bounds_of_mem_placed later).1
          unfold EndsBy
          omega
  have storableFront := (List.forall_mem_append.mp storable).1
  rw [left, scan_ofRecords storableFront torn, placed_append, List.filter_append,
    List.filter_eq_self.mpr (by simpa using kept), List.filter_eq_nil_iff.mpr (by simpa using lost),
    List.append_nil]

end Frame

/-! ### Appending -/

/-- The records of what is appended one after the other, numbered from a number on. -/
def LogRecord.numbered : Nat → List (Uuid × RecordBody) → List LogRecord
  | _, [] => []
  | number, (correlation, body) :: rest =>
      ⟨number, correlation, body⟩ :: numbered (number + 1) rest

/-- To append one after the other. -/
def StoreEvent.appends (entries : List (Uuid × RecordBody)) : List StoreEvent :=
  entries.map fun entry => .ask (.append entry.1 entry.2)

theorem MemoryLog.Orderly.appends {log : MemoryLog} (orderly : log.Orderly)
    {entries : List (Uuid × RecordBody)}
    (storable : ∀ record ∈ LogRecord.numbered log.head entries, record.Storable) :
    log.Disciplined (StoreEvent.appends entries) ∧
      ((StoreEvent.appends entries).foldl after log).records.reverse =
        log.records.reverse ++ LogRecord.numbered log.head entries := by
  induction entries generalizing log with
  | nil => exact ⟨trivial, (List.append_nil _).symm⟩
  | cons entry rest ih =>
      obtain ⟨first, others⟩ := List.forall_mem_cons.mp storable
      have performed := orderly.perform_eq (.append entry.1 entry.2)
      have next : (log.answer (.append entry.1 entry.2)).2.Orderly := orderly.answer first
      obtain ⟨disciplined, records⟩ := ih next others
      refine ⟨⟨first, trivial, ?_⟩, ?_⟩
      · rw [performed]
        exact disciplined
      · rw [StoreEvent.appends, List.map_cons, List.foldl_cons, after, performed]
        refine records.trans ?_
        rw [MemoryLog.answer, List.reverse_cons, List.append_assoc]
        rfl

/-- The segment of a directory that was empty holds the frames of what was appended. -/
theorem FileStore.contents_appends (config : FileLogConfig) {directory : Directory}
    (empty : directory.entries = []) {entries : List (Uuid × RecordBody)}
    (storable : ∀ record ∈ LogRecord.numbered 0 entries, record.Storable) :
    ∃ store answers last, opened config directory = .ok store ∧
      store.run (StoreEvent.appends entries) = .ok (answers, last) ∧
        last.directory.contents FileLog.segmentName =
          .ok (Frame.ofRecords (LogRecord.numbered 0 entries)) := by
  obtain ⟨store, opens, mirrors⟩ := mirrors_empty config empty
  obtain ⟨disciplined, records⟩ := MemoryLog.orderly_empty.appends storable
  obtain ⟨last, ran, after, -⟩ :=
    mirrors.run MemoryLog.orderly_empty MemoryLog.covered_empty disciplined
  refine ⟨store, _, last, opens, ran, ?_⟩
  rw [after.sound.contents_eq after.segment, records]
  rfl

/-- A scan of any octets finds the longest run of intact frames at their front and where it ends.
Up to there it finds the same again, and one record more once the frame of one is written there. So
of the frames of records, cut anywhere, it finds those that end there or before, and the segment of
a directory that was empty holds just the frames of what was appended. -/
theorem Frame.scan_recovers :
    (∀ bytes : Bytes, ∃ run, LongestRun run bytes ∧
      scan bytes = ⟨located 0 run, (octets run).length⟩ ∧
      scan (bytes.take (scan bytes).length) = scan bytes ∧
      ∀ record : LogRecord, record.Storable →
        scan (bytes.take (scan bytes).length ++ ofRecord record) =
          ⟨(scan bytes).records ++ [((scan bytes).length, record)],
            (scan bytes).length + (ofRecord record).length⟩) ∧
    (∀ records : List LogRecord, (∀ record ∈ records, record.Storable) → ∀ count,
      (scan ((ofRecords records).take count)).records =
        (placed 0 records).filter fun entry => decide (EndsBy count entry)) ∧
    ∀ (config : FileLogConfig) (directory : Directory) (entries : List (Uuid × RecordBody)),
      directory.entries = [] → (∀ record ∈ LogRecord.numbered 0 entries, record.Storable) →
        ∃ store answers last, FileStore.opened config directory = .ok store ∧
          store.run (StoreEvent.appends entries) = .ok (answers, last) ∧
            last.directory.contents FileLog.segmentName =
              .ok (ofRecords (LogRecord.numbered 0 entries)) := by
  refine ⟨fun bytes => ?_, fun _ storable => scan_take_ofRecords storable,
    fun config _ _ empty storable => FileStore.contents_appends config empty storable⟩
  obtain ⟨run, longest, scanned⟩ := scan_spec bytes
  have intact : bytes.take (scan bytes).length = octets run := by
    rw [scanned]
    exact (List.prefix_iff_eq_take.mp longest.front).symm
  refine ⟨run, longest, scanned, ?_, fun record storable => ?_⟩
  · rw [intact, scan_octets, scanned]
  · rw [intact, ← octets_concat storable, scan_octets, octets_concat storable, located_append,
      scanned, List.length_append, Nat.zero_add]
    rfl

namespace Sample

/-- A record that names the tree, and a barrier after it. -/
def twoEntries : List (Uuid × RecordBody) := [(Uuid.ofNat 0, naming), (Uuid.ofNat 1, .barrier)]

theorem twoEntries_storable : ∀ record ∈ LogRecord.numbered 0 twoEntries, record.Storable := by
  refine List.forall_mem_cons.mpr ⟨⟨by decide, naming_storable, by decide⟩, ?_⟩
  exact List.forall_mem_singleton.mpr ⟨by decide, trivial, by decide⟩

/-- The second of two frames has lost its last octet. -/
theorem twoEntries_torn :
    (∀ record ∈ LogRecord.numbered 0 twoEntries, record.Storable) ∧
      (∃ store answers last, FileStore.opened .standard .absent = .ok store ∧
        store.run (StoreEvent.appends twoEntries) = .ok (answers, last) ∧
          last.directory.contents FileLog.segmentName =
            .ok (Frame.ofRecords (LogRecord.numbered 0 twoEntries))) ∧
      (Frame.scan ((Frame.ofRecords (LogRecord.numbered 0 twoEntries)).dropLast)).records =
        [(0, ⟨0, Uuid.ofNat 0, naming⟩)] := by
  obtain ⟨-, cut, written⟩ := Frame.scan_recovers
  refine ⟨twoEntries_storable, written .standard .absent _ rfl twoEntries_storable, ?_⟩
  rw [List.dropLast_eq_take, cut _ twoEntries_storable]
  decide +kernel

end Sample

end StateTree
