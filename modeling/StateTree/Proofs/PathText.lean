/-
Module: StateTree.Proofs.PathText
Purpose: Reading written paths back. The octets of a name come back from their escapes, no segment
  has a slash in its written form, and so the pieces between slashes are the segments.
-/
import StateTree.Path.Text

namespace StateTree

/-- What holds of the 256 octets holds of every octet. -/
theorem forall_byte {property : UInt8 → Prop} (every : ∀ n < 256, property (UInt8.ofNat n)) :
    ∀ b, property b := by
  intro b
  have same : UInt8.ofNat b.toNat = b := UInt8.ofNat_toNat
  rw [← same]
  exact every _ b.toNat_lt

theorem Text.utf8_inj {a b : String} (same : utf8 a = utf8 b) : a = b := by
  have read := ofUtf8?_utf8 a
  rw [same, ofUtf8?_utf8] at read
  exact (Option.some.inj read).symm

theorem Text.utf8_ne_nil {text : String} (nonempty : text ≠ "") : utf8 text ≠ [] :=
  fun none => nonempty (utf8_inj none)

namespace Segment

/-- A segment that can be written: a name that is not empty, or a parameter with a label that is not
empty and has neither a dash nor a slash in it. -/
def Writable : Segment → Prop
  | .name text => text ≠ ""
  | .parameter label => label ≠ "" ∧ '-' ∉ label.toList ∧ '/' ∉ label.toList

instance (segment : Segment) : Decidable segment.Writable := by
  cases segment <;> unfold Writable <;> infer_instance

/-! ### Octets of a name -/

theorem plainByte_facts (edge : Bool) : ∀ b : UInt8, standsForItself b edge = true →
    Char.ofNat b.toNat ≠ '%' ∧ Char.ofNat b.toNat ≠ '/' ∧
      (edge = true → Char.ofNat b.toNat ≠ '-') ∧
        String.utf8EncodeChar (Char.ofNat b.toNat) = [b] := by
  apply forall_byte
  revert edge
  decide +kernel

theorem upperHexByte_facts : ∀ b : UInt8,
    escapeValue? (Text.upperHexDigit (b.toNat / 16)) (Text.upperHexDigit (b.toNat % 16)) = some b ∧
      '/' ∉ Text.upperHexByte b := by
  apply forall_byte
  decide +kernel

theorem unescaped?_cons {c : Char} (plain : c ≠ '%') (rest : List Char) :
    unescaped? (c :: rest) = (unescaped? rest).map (String.utf8EncodeChar c ++ ·) := by
  rw [unescaped?.eq_def]
  split <;> simp_all

/-- An octet comes back from its written form. -/
theorem unescaped?_escapedByte (b : UInt8) (edge : Bool) (rest : List Char) :
    unescaped? (escapedByte b edge ++ rest) = (unescaped? rest).map (b :: ·) := by
  unfold escapedByte
  split
  · rename_i plain
    obtain ⟨noPercent, -, -, encodes⟩ := plainByte_facts edge b plain
    rw [List.singleton_append, unescaped?_cons noPercent, encodes]
    rfl
  · have value := (upperHexByte_facts b).1
    simp only [Text.upperHexByte, List.cons_append, List.nil_append, unescaped?, value]
    cases unescaped? rest <;> rfl

theorem slash_not_mem_escapedByte (b : UInt8) (edge : Bool) : '/' ∉ escapedByte b edge := by
  unfold escapedByte
  split
  · rename_i plain
    have noSlash := (plainByte_facts edge b plain).2.1
    rw [List.mem_singleton]
    exact noSlash.symm
  · have noSlash := (upperHexByte_facts b).2
    rw [List.mem_cons, not_or]
    exact ⟨by decide, noSlash⟩

theorem unescaped?_escapedTail (bytes : Bytes) : unescaped? (escapedTail bytes) = some bytes := by
  induction bytes with
  | nil => rfl
  | cons b rest ih =>
      cases rest with
      | nil =>
          have back := unescaped?_escapedByte b true []
          rwa [List.append_nil] at back
      | cons next rest =>
          rw [escapedTail, unescaped?_escapedByte, ih]
          rfl
          exact fun none => by cases none

theorem slash_not_mem_escapedTail (bytes : Bytes) : '/' ∉ escapedTail bytes := by
  induction bytes with
  | nil => exact List.not_mem_nil
  | cons b rest ih =>
      cases rest with
      | nil => exact slash_not_mem_escapedByte b true
      | cons next rest =>
          rw [escapedTail, List.mem_append, not_or]
          exact ⟨slash_not_mem_escapedByte b false, ih⟩
          exact fun none => by cases none

/-- The octets of a name come back from its written form. -/
theorem unescaped?_escaped (bytes : Bytes) : unescaped? (escaped bytes) = some bytes := by
  cases bytes with
  | nil => rfl
  | cons b rest =>
      rw [escaped, unescaped?_escapedByte, unescaped?_escapedTail]
      rfl

theorem slash_not_mem_escaped (bytes : Bytes) : '/' ∉ escaped bytes := by
  cases bytes with
  | nil => exact List.not_mem_nil
  | cons b rest =>
      rw [escaped, List.mem_append, not_or]
      exact ⟨slash_not_mem_escapedByte b true, slash_not_mem_escapedTail rest⟩

/-- The written form of a name does not begin like a parameter. -/
theorem escaped_cons (b : UInt8) (rest : Bytes) :
    ∃ first more, escaped (b :: rest) = first :: more ∧ first ≠ '-' := by
  rw [escaped, escapedByte]
  cases plain : standsForItself b true with
  | true => exact ⟨_, _, rfl, (plainByte_facts true b plain).2.2.1 rfl⟩
  | false => exact ⟨_, _, rfl, by decide⟩

/-! ### Segments -/

theorem slash_not_mem_chars {segment : Segment} (writable : segment.Writable) :
    '/' ∉ segment.chars := by
  cases segment with
  | name text => exact slash_not_mem_escaped _
  | parameter label => simp [chars, writable.2.2]

theorem chars_ne_nil {segment : Segment} (writable : segment.Writable) : segment.chars ≠ [] := by
  cases segment with
  | name text =>
      obtain ⟨b, rest, bytes⟩ := List.exists_cons_of_ne_nil (Text.utf8_ne_nil writable)
      obtain ⟨first, more, written, -⟩ := escaped_cons b rest
      rw [chars, bytes, written]
      exact List.cons_ne_nil _ _
  | parameter label => exact List.cons_ne_nil _ _

theorem ofChars_of_ne {first : Char} {more : List Char} (name : first ≠ '-') :
    ofChars (first :: more) =
      match unescaped? (first :: more) >>= Text.ofUtf8? with
      | some text => .ok (.name text)
      | none => .error (.badEscape (String.ofList (first :: more))) := by
  rw [ofChars.eq_def]
  split
  · contradiction
  · simp_all
  · cases unescaped? (first :: more) >>= Text.ofUtf8? <;> rfl

/-- A segment comes back from its written form. -/
theorem ofChars_chars {segment : Segment} (writable : segment.Writable) :
    ofChars segment.chars = .ok segment := by
  cases segment with
  | name text =>
      obtain ⟨b, rest, bytes⟩ := List.exists_cons_of_ne_nil (Text.utf8_ne_nil writable)
      obtain ⟨first, more, written, name⟩ := escaped_cons b rest
      have back : unescaped? (first :: more) = some (Text.utf8 text) := by
        rw [← written, ← bytes]
        exact unescaped?_escaped _
      rw [chars, bytes, written, ofChars_of_ne name, back, Option.bind_eq_bind, Option.bind_some,
        Text.ofUtf8?_utf8]
  | parameter label =>
      obtain ⟨nonempty, noDash, -⟩ := writable
      simp [chars, ofChars, noDash, nonempty]

theorem ne_nil_of_unescaped? {raw : List Char} {bytes : Bytes} (nonempty : raw ≠ [])
    (read : unescaped? raw = some bytes) : bytes ≠ [] := by
  rw [unescaped?.eq_def] at read
  split at read
  · exact absurd rfl nonempty
  · simp only [Option.bind_eq_bind, Option.bind_eq_some_iff, Option.pure_def,
      Option.some.injEq] at read
    obtain ⟨b, -, rest, -, rfl⟩ := read
    exact List.cons_ne_nil _ _
  · cases read
  · obtain ⟨bytes, -, rfl⟩ := Option.map_eq_some_iff.mp read
    exact List.append_ne_nil_of_left_ne_nil String.utf8EncodeChar_ne_nil _

/-- What is read from a written form can be written. -/
theorem writable_of_ofChars {raw : List Char} {segment : Segment} (noSlash : '/' ∉ raw)
    (read : ofChars raw = .ok segment) : segment.Writable := by
  rw [ofChars.eq_def] at read
  split at read
  · cases read
  · rename_i rest
    split at read
    · rename_i shaped
      dsimp only at read
      split at read
      · cases read
      · rename_i noDash
        cases read
        refine ⟨?_, ?_, ?_⟩
        · intro none
          have empty : rest.dropLast = [] := by simpa using congrArg String.toList none
          have length := congrArg List.length empty
          rw [List.length_dropLast, List.length_nil] at length
          omega
        · simpa using noDash
        · intro slash
          rw [String.toList_ofList] at slash
          exact noSlash (List.mem_cons_of_mem _ (List.dropLast_subset _ slash))
    · cases read
  · rename_i nonempty _
    split at read
    · rename_i text found
      cases read
      obtain ⟨bytes, unescaped, decoded⟩ := Option.bind_eq_some_iff.mp found
      rintro rfl
      exact ne_nil_of_unescaped? nonempty unescaped (Text.utf8_of_ofUtf8? decoded)
    · cases read

end Segment

namespace Path

/-- A path whose segments can be written. -/
def Writable (path : Path) : Prop := ∀ segment ∈ path.segments, segment.Writable

instance (path : Path) : Decidable path.Writable :=
  inferInstanceAs (Decidable (∀ segment ∈ path.segments, segment.Writable))

/-! ### The pieces between slashes -/

theorem pieces_of_no_slash {piece : List Char} (noSlash : '/' ∉ piece) :
    pieces piece = [piece] := by
  induction piece with
  | nil => rfl
  | cons c rest ih =>
      obtain ⟨other, noSlash⟩ := List.ne_and_not_mem_of_not_mem_cons noSlash
      rw [pieces, ih noSlash]
      exact fun same => other same.symm

theorem pieces_append {piece : List Char} (noSlash : '/' ∉ piece) (rest : List Char) :
    pieces (piece ++ '/' :: rest) = piece :: pieces rest := by
  induction piece with
  | nil => rfl
  | cons c piece ih =>
      obtain ⟨other, noSlash⟩ := List.ne_and_not_mem_of_not_mem_cons noSlash
      rw [List.cons_append, pieces, ih noSlash]
      exact fun same => other same.symm

/-- Pieces with a slash before each but the first are found again. -/
theorem pieces_join {first : List Char} {others : List (List Char)}
    (apart : ∀ piece ∈ first :: others, '/' ∉ piece) :
    pieces (first ++ others.flatMap fun piece => '/' :: piece) = first :: others := by
  induction others generalizing first with
  | nil =>
      rw [List.flatMap_nil, List.append_nil]
      exact pieces_of_no_slash (apart first List.mem_cons_self)
  | cons next rest ih =>
      obtain ⟨here, apart⟩ := List.forall_mem_cons.mp apart
      rw [List.flatMap_cons, List.cons_append, pieces_append here, ih apart]

/-- Pieces that are not empty and have a slash before each but the first do not end with one. -/
theorem getLast?_join {first : List Char} {others : List (List Char)}
    (apart : ∀ piece ∈ first :: others, '/' ∉ piece)
    (nonempty : ∀ piece ∈ first :: others, piece ≠ []) :
    (first ++ others.flatMap fun piece => '/' :: piece).getLast? ≠ some '/' := by
  induction others generalizing first with
  | nil =>
      intro last
      rw [List.flatMap_nil, List.append_nil] at last
      exact apart first List.mem_cons_self (List.mem_of_getLast? last)
  | cons next rest ih =>
      have apart := (List.forall_mem_cons.mp apart).2
      have nonempty := (List.forall_mem_cons.mp nonempty).2
      have more := List.append_ne_nil_of_left_ne_nil (nonempty next List.mem_cons_self)
        (rest.flatMap fun piece => '/' :: piece)
      intro last
      rw [List.flatMap_cons, List.cons_append, List.getLast?_append,
        List.getLast?_cons_of_ne_nil more] at last
      rcases Option.or_eq_some_iff.mp last with found | ⟨none, -⟩
      · exact ih apart nonempty found
      · exact absurd (List.getLast?_eq_none_iff.mp none) more

/-- The pieces of segments written after a slash each are their written forms. -/
theorem pieces_chars {segment : Segment} {segments : List Segment}
    (writable : ∀ written ∈ segment :: segments, written.Writable) :
    pieces (segment.chars ++ segments.flatMap fun segment => '/' :: segment.chars) =
      (segment :: segments).map Segment.chars := by
  have apart : ∀ piece ∈ (segment :: segments).map Segment.chars, '/' ∉ piece := by
    intro piece among
    obtain ⟨written, member, rfl⟩ := List.mem_map.mp among
    exact Segment.slash_not_mem_chars (writable written member)
  rw [← List.flatMap_map Segment.chars fun piece => '/' :: piece, pieces_join apart]
  rfl

theorem segmentsOfPieces_chars {segments : List Segment}
    (writable : ∀ segment ∈ segments, segment.Writable) :
    segmentsOfPieces (segments.map Segment.chars) = .ok segments := by
  induction segments with
  | nil => rfl
  | cons segment rest ih =>
      obtain ⟨first, others⟩ := List.forall_mem_cons.mp writable
      rw [List.map_cons, segmentsOfPieces, Segment.ofChars_chars first, ih others]
      rfl

/-- The written form of a path ends with a slash at the root only. -/
theorem getLast?_body {segment : Segment} {segments : List Segment}
    (writable : ∀ written ∈ segment :: segments, written.Writable) :
    (segment.chars ++ segments.flatMap fun segment => '/' :: segment.chars).getLast? ≠
      some '/' := by
  have formed : ∀ piece ∈ (segment :: segments).map Segment.chars, '/' ∉ piece ∧ piece ≠ [] := by
    intro piece among
    obtain ⟨written, member, rfl⟩ := List.mem_map.mp among
    have writable := writable written member
    exact ⟨Segment.slash_not_mem_chars writable, Segment.chars_ne_nil writable⟩
  rw [← List.flatMap_map Segment.chars fun piece => '/' :: piece]
  exact getLast?_join (fun piece member => (formed piece member).1)
    fun piece member => (formed piece member).2

/-- A path comes back from its written form. -/
theorem parse?_render {path : Path} (writable : path.Writable) :
    parse? path.render = some path := by
  obtain ⟨segments⟩ := path
  cases segments with
  | nil => rfl
  | cons segment rest =>
      have nonempty := List.append_ne_nil_of_left_ne_nil
        (Segment.chars_ne_nil (writable segment List.mem_cons_self))
        (rest.flatMap fun segment => '/' :: segment.chars)
      have read : segmentsOfChars (chars ⟨segment :: rest⟩) = .ok (segment :: rest) := by
        rw [chars, List.isEmpty_cons, if_neg Bool.false_ne_true, List.flatMap_cons,
          List.cons_append, segmentsOfChars, if_neg (List.isEmpty_eq_false_iff.mpr nonempty ▸
            Bool.false_ne_true), if_neg (getLast?_body writable), pieces_chars writable,
          segmentsOfPieces_chars writable]
      simp [parse?, parse, render, read, Except.toOption]

/-! ### What is read -/

theorem slash_not_mem_pieces (raw : List Char) : ∀ piece ∈ pieces raw, '/' ∉ piece := by
  induction raw with
  | nil => simp [pieces]
  | cons c rest ih =>
      rw [pieces.eq_def]
      split
      · contradiction
      · rename_i same
        cases same
        rw [List.forall_mem_cons]
        exact ⟨List.not_mem_nil, ih⟩
      · rename_i other rest different same
        cases same
        have extended {piece : List Char} (noSlash : '/' ∉ piece) : '/' ∉ c :: piece := by
          rw [List.mem_cons, not_or]
          exact ⟨fun slash => different slash.symm, noSlash⟩
        split
        · rename_i first more split
          rw [split, List.forall_mem_cons] at ih
          rw [List.forall_mem_cons]
          exact ⟨extended ih.1, ih.2⟩
        · rw [List.forall_mem_singleton]
          exact extended List.not_mem_nil

theorem writable_of_segmentsOfPieces {written : List (List Char)} {segments : List Segment}
    (noSlash : ∀ piece ∈ written, '/' ∉ piece) (read : segmentsOfPieces written = .ok segments) :
    ∀ segment ∈ segments, segment.Writable := by
  induction written generalizing segments with
  | nil =>
      cases read
      simp
  | cons piece rest ih =>
      obtain ⟨first, others⟩ := List.forall_mem_cons.mp noSlash
      rw [segmentsOfPieces] at read
      cases here : Segment.ofChars piece with
      | error fault =>
          rw [here] at read
          cases read
      | ok segment =>
          cases further : segmentsOfPieces rest with
          | error fault =>
              rw [here, further] at read
              cases read
          | ok more =>
              rw [here, further] at read
              cases read
              rw [List.forall_mem_cons]
              exact ⟨Segment.writable_of_ofChars first here, ih others further⟩

/-- The paths that are read from texts are those that can be written. -/
theorem writable_iff {path : Path} : path.Writable ↔ ∃ text, parse? text = some path := by
  constructor
  · intro writable
    exact ⟨path.render, parse?_render writable⟩
  · rintro ⟨text, read⟩
    unfold parse? parse segmentsOfChars at read
    split at read
    · rename_i segments found
      cases read
      split at found
      · split at found
        · cases found
          intro segment member
          cases member
        · exact writable_of_segmentsOfPieces (slash_not_mem_pieces _) found
      · cases found
    · cases read

/-! ### Texts and paths -/

theorem parse_eq_ok_iff {text : String} {path : Path} :
    parse text = .ok path ↔ parse? text = some path := by
  unfold parse?
  cases parse text <;> simp [Except.toOption]

/-- A path comes back from its text exactly when its segments can be written. Those are the paths
that texts are read as, so what was read is read again from its own text; and no two of them have
one text. -/
theorem parse_render_iff :
    (∀ path : Path, parse path.render = .ok path ↔ path.Writable) ∧
      (∀ text path, parse text = .ok path → path.Writable ∧ parse path.render = parse text) ∧
        ∀ path other : Path, path.Writable → other.Writable → path.render = other.render →
          path = other := by
  have back {path : Path} (writable : path.Writable) : parse path.render = .ok path :=
    parse_eq_ok_iff.mpr (parse?_render writable)
  have written {text : String} {path : Path} (read : parse text = .ok path) : path.Writable :=
    writable_iff.mpr ⟨text, parse_eq_ok_iff.mp read⟩
  refine ⟨fun path => ⟨written, back⟩, ?_, ?_⟩
  · intro text path read
    exact ⟨written read, (back (written read)).trans read.symm⟩
  · intro path other writable writable' same
    have read := back writable
    rw [same, back writable'] at read
    exact (Except.ok.inj read).symm

end Path

/-! ### In the sample -/

namespace Sample

/-- A path whose names look like a parameter, hold a slash and a percent sign, and end with a
dash. -/
def awkward : Path :=
  ⟨[.name "-a-", .parameter "b", .name "c/d", .name "100%", .name "é", .name "e-"]⟩

/-- It has other texts besides its own, and comes back from each of them. -/
theorem awkward_comes_back :
    Path.parse "/%2da-/-b-/c%2fd/100%25/é/e-/" = .ok awkward ∧
      awkward.render = "/%2Da%2D/-b-/c%2Fd/100%25/%C3%A9/e%2D" ∧
        Path.parse awkward.render = .ok awkward := by
  have read : Path.parse "/%2da-/-b-/c%2fd/100%25/é/e-/" = .ok awkward :=
    Path.parse_eq_ok_iff.mpr (by decide +kernel)
  refine ⟨read, by decide +kernel, ?_⟩
  exact (Path.parse_render_iff.2.1 _ _ read).2.trans read

end Sample

end StateTree
