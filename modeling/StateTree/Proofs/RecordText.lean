/-
Module: StateTree.Proofs.RecordText
Purpose: Reading back what a log keeps on disk. Records and snapshots come back from their octets,
  the manifest from its text, as long as their numbers fit their words.
-/
import StateTree.Format.Json.Pretty
import StateTree.Log.Record
import StateTree.Proofs.NodeText

namespace StateTree

/-! ### What can be stored -/

/-- An operation with paths that can be written and a regular value. -/
structure Operation.Storable (operation : Operation) : Prop where
  target : operation.target.Writable
  value : ∀ value, operation.value? = some value → value.Regular
  precondition : ∀ path required, operation.precondition? = some (path, required) → path.Writable

/-- What a record may carry. Diagnostic attributes are in the order in which they are kept. -/
def RecordBody.Storable : RecordBody → Prop
  | .update change =>
      change.operation.Storable ∧ Keyed.Ascending change.diagnostics.attributes
  | .barrier => True

/-- A record that comes back from the binary layout: its number is a word, and so is the number of
its octets. -/
structure LogRecord.Countable (record : LogRecord) : Prop where
  number : record.number < UInt64.size
  body : record.body.Storable
  short : (Codec.put record).length < UInt64.size

/-- A record that can be read back from a segment: its number is a word, its octets can be counted
in a shorter one. -/
structure LogRecord.Storable (record : LogRecord) : Prop where
  number : record.number < UInt64.size
  body : record.body.Storable
  short : (Codec.put record).length < UInt32.size

/-- What can be stored can be counted. -/
theorem LogRecord.Storable.countable {record : LogRecord} (storable : record.Storable) :
    record.Countable :=
  ⟨storable.number, storable.body, Nat.lt_trans storable.short (by decide)⟩

/-- A snapshot whose numbers are words. -/
structure StateDocument.Storable (document : StateDocument) : Prop where
  revision : document.revision < UInt64.size
  position : document.position < UInt64.size
  short : document.bytes.length < UInt64.size

/-! ### The binary layout -/

open Binary (Reads)

theorem Uuid.ofOctets?_octets (uuid : Uuid) : ofOctets? uuid.octets = some uuid := by
  have length : uuid.octets.length = 16 := by
    rw [octets, List.length_reverse, Binary.length_littleEndian]
  have back : Binary.ofLittleEndian uuid.octets.reverse = uuid.value.toNat := by
    rw [octets, List.reverse_reverse]
    exact Binary.ofLittleEndian_littleEndian uuid.value.isLt
  rw [ofOctets?, if_pos length, back, ofNat, BitVec.ofNat_toNat, BitVec.setWidth_eq]

theorem Uuid.reads (uuid : Uuid) : Reads Codec.get (Codec.put uuid) uuid := by
  have length : uuid.octets.length < UInt64.size := by
    rw [octets, List.length_reverse, Binary.length_littleEndian]
    decide
  apply (Binary.reads_bytes length).map
  rw [uuid.ofOctets?_octets]
  rfl

theorem StateFormat.reads (format : StateFormat) : Reads Codec.get (Codec.put format) format := by
  cases format <;> exact fun _ => rfl

theorem Node.reads (node : Node) (regular : node.Regular)
    (short : (Codec.put node).length < UInt64.size) : Reads Codec.get (Codec.put node) node := by
  intro rest
  apply readsBinary regular _ short
  rw [List.length_append]
  exact Nat.lt_succ_of_le (Nat.le_add_right _ _)

theorem DiagnosticContext.reads (context : DiagnosticContext)
    (ascending : Keyed.Ascending context.attributes)
    (short : (Codec.put context).length < UInt64.size) :
    Reads Codec.get (Codec.put context) context := by
  let put (entry : String × String) := Binary.putText entry.1 ++ Binary.putText entry.2
  have split (entry : String × String) : (put entry).length =
      (Binary.putText entry.1).length + (Binary.putText entry.2).length := List.length_append
  change (Binary.putWord64 context.attributes.length ++
    context.attributes.flatMap put).length < _ at short
  rw [List.length_append] at short
  have count : context.attributes.length ≤ (context.attributes.flatMap put).length := by
    apply Node.length_le_flatMap
    intro entry _
    have key := Node.utf8_length_lt entry.1
    rw [split]
    omega
  apply (@Binary.reads_list _ _ put _ (by omega) ?_).map
  · rw [ofPairs, Keyed.sortedOfPairs_of_ascending ascending]
  · intro entry member
    have part := Node.length_le_of_mem put member
    have key := Node.utf8_length_lt entry.1
    have value := Node.utf8_length_lt entry.2
    rw [split] at part
    exact (Binary.reads_text (by omega)).bind ((Binary.reads_text (by omega)).map rfl)

theorem Path.reads (path : Path) (writable : path.Writable)
    (short : (Codec.put path).length < UInt64.size) : Reads Codec.get (Codec.put path) path :=
  Node.reads_path writable (Nat.lt_trans (Node.utf8_length_lt path.render) short)

theorem Identifier.reads (own : Identifier) (short : (Codec.put own).length < UInt64.size) :
    Reads Codec.get (Codec.put own) own :=
  Node.reads_identifier (Nat.lt_trans (Node.utf8_length_lt own.text) short)

/-- An operation is read back by its kind and its parts, which are all read back. -/
theorem Operation.reads (operation : Operation) (storable : operation.Storable)
    (short : (Codec.put operation).length < UInt64.size) :
    Reads Codec.get (Codec.put operation) operation := by
  obtain ⟨target, regular, precondition⟩ := storable
  change Reads get _ _
  unfold get
  cases operation with
  | replacement path value =>
      have written : Codec.put (replacement path value) =
          Binary.putWord32 0 ++ (Codec.put path ++ Codec.put value) := List.append_assoc _ _ _
      rw [written] at short ⊢
      simp only [List.length_append] at short
      apply (Binary.reads_word32 (by decide)).bind
      apply (path.reads target (by omega)).bind
      exact (value.reads (regular value rfl) (by omega)).map rfl
  | conditionalReplacement path value condition required =>
      have written : Codec.put (conditionalReplacement path value condition required) =
          Binary.putWord32 1 ++ (Codec.put path ++ (Codec.put value ++
            (Codec.put condition ++ Codec.put required))) := by
        simp only [← List.append_assoc]
        rfl
      rw [written] at short ⊢
      simp only [List.length_append] at short
      apply (Binary.reads_word32 (by decide)).bind
      apply (path.reads target (by omega)).bind
      apply (value.reads (regular value rfl) (by omega)).bind
      apply (condition.reads (precondition condition required rfl) (by omega)).bind
      exact (required.reads (by omega)).map rfl
  | initialization path value =>
      have written : Codec.put (initialization path value) =
          Binary.putWord32 2 ++ (Codec.put path ++ Codec.put value) := List.append_assoc _ _ _
      rw [written] at short ⊢
      simp only [List.length_append] at short
      apply (Binary.reads_word32 (by decide)).bind
      apply (path.reads target (by omega)).bind
      exact (value.reads (regular value rfl) (by omega)).map rfl
  | deletion path =>
      have written : Codec.put (deletion path) = Binary.putWord32 3 ++ Codec.put path := rfl
      rw [written] at short ⊢
      simp only [List.length_append] at short
      apply (Binary.reads_word32 (by decide)).bind
      exact (path.reads target (by omega)).map rfl
  | conditionalDeletion path condition required =>
      have written : Codec.put (conditionalDeletion path condition required) =
          Binary.putWord32 4 ++ (Codec.put path ++ (Codec.put condition ++
            Codec.put required)) := by
        simp only [← List.append_assoc]
        rfl
      rw [written] at short ⊢
      simp only [List.length_append] at short
      apply (Binary.reads_word32 (by decide)).bind
      apply (path.reads target (by omega)).bind
      apply (condition.reads (precondition condition required rfl) (by omega)).bind
      exact (required.reads (by omega)).map rfl

/-- The body of a record is read back, be it an update with its attributes or a barrier. -/
theorem RecordBody.reads (body : RecordBody) (storable : body.Storable)
    (short : (Codec.put body).length < UInt64.size) :
    Reads Codec.get (Codec.put body) body := by
  cases body with
  | update change =>
      obtain ⟨operation, ascending⟩ := storable
      have written : Codec.put (RecordBody.update change) = Binary.putWord32 0 ++
          (Codec.put change.operation ++ Codec.put change.diagnostics) := rfl
      rw [written] at short ⊢
      simp only [List.length_append] at short
      apply (Binary.reads_word32 (by decide)).bind
      have both : Reads (Codec.get (α := Update))
          (Codec.put change.operation ++ Codec.put change.diagnostics) change :=
        (change.operation.reads operation (by omega)).bind
          ((change.diagnostics.reads ascending (by omega)).map rfl)
      exact both.map rfl
  | barrier => exact (Binary.reads_word32 (by decide)).map rfl

/-- A record whose octets can be counted comes back from them. -/
theorem LogRecord.reads_of_countable (record : LogRecord) (countable : record.Countable) :
    Reads Codec.get (Codec.put record) record := by
  obtain ⟨number, body, short⟩ := countable
  have written : Codec.put record = Binary.putWord64 record.number ++
      (Codec.put record.correlation ++ Codec.put record.body) := List.append_assoc _ _ _
  rw [written] at short ⊢
  simp only [List.length_append] at short
  apply (Binary.reads_word64 number).bind
  apply record.correlation.reads.bind
  exact (record.body.reads body (by omega)).map rfl

/-- A record comes back from its octets in a segment. -/
theorem LogRecord.reads (record : LogRecord) (storable : record.Storable) :
    Reads Codec.get (Codec.put record) record :=
  record.reads_of_countable storable.countable

/-- A snapshot comes back from its octets. -/
theorem StateDocument.reads (document : StateDocument) (storable : document.Storable) :
    Reads Codec.get (Codec.put document) document := by
  obtain ⟨revision, position, short⟩ := storable
  have written : Codec.put document = Binary.putWord64 document.revision ++
      (Binary.putWord64 document.position ++ (Codec.put document.format ++
        Binary.putBytes document.bytes)) := by
    simp only [← List.append_assoc]
    rfl
  rw [written]
  apply (Binary.reads_word64 revision).bind
  apply (Binary.reads_word64 position).bind
  apply document.format.reads.bind
  exact (Binary.reads_bytes short).map rfl

/-- What a reader takes from octets with nothing after them. -/
theorem Codec.ofBinary?_of_reads {α : Type} [Codec α] {bytes : Bytes} {value : α}
    (reads : Reads Codec.get bytes value) : ofBinary? bytes = some value := by
  have whole := reads []
  rw [List.append_nil] at whole
  rw [ofBinary?, whole]
  rfl

/-! ### Octets that tell where they end -/

/-- Of the values of a kind, each is what is read from any octets that begin with its own, whatever
follows them, and the octets of none begin with those of another. -/
structure Codec.SelfDelimiting {α : Type} [Codec α] (kind : α → Prop) : Prop where
  taken : ∀ value, kind value → ∀ rest, get (put value ++ rest) = some (value, rest)
  decoded : ∀ value, kind value → ∀ rest, ofBinary? (put value ++ rest) = some value
  prefixFree : ∀ value other, kind value → kind other → put value <+: put other → value = other

/-- Values that are read from the front of octets cannot be the beginning of one another, since
both would be read from the longer ones. -/
theorem Codec.selfDelimiting_of_reads {α : Type} [Codec α] {kind : α → Prop}
    (reads : ∀ value, kind value → Reads get (put value) value) : SelfDelimiting kind where
  taken value isKind := reads value isKind
  decoded value isKind rest := by
    rw [ofBinary?, reads value isKind]
    rfl
  prefixFree value other isKind otherKind begins := by
    obtain ⟨rest, longer⟩ := begins
    have short := reads value isKind rest
    have whole := reads other otherKind []
    rw [longer] at short
    rw [List.append_nil, short] at whole
    exact congrArg Prod.fst (Option.some.inj whole)

/-- The binary forms of records, trees and snapshots tell where they end. -/
theorem binary_selfDelimiting :
    Codec.SelfDelimiting LogRecord.Countable ∧
      Codec.SelfDelimiting (fun node : Node =>
        node.Regular ∧ (Codec.put node).length < UInt64.size) ∧
      Codec.SelfDelimiting StateDocument.Storable :=
  ⟨Codec.selfDelimiting_of_reads LogRecord.reads_of_countable,
    Codec.selfDelimiting_of_reads fun node countable => node.reads countable.1 countable.2,
    Codec.selfDelimiting_of_reads StateDocument.reads⟩

namespace Sample

/-- A record that stores a listing on a condition, with what its submitter noted. -/
def conditional : LogRecord :=
  ⟨5, .ofNat 7, .update ⟨.conditionalReplacement ⟨[.name "a/b"]⟩
    (.listing ⟨⟨[.name "targets"]⟩, [⟨"t", by decide⟩]⟩) ⟨[.name "id"]⟩ ⟨"own", by decide⟩,
    ⟨[("by", "caller")]⟩⟩⟩

theorem countable_conditional : conditional.Countable := by
  refine ⟨by decide, ⟨⟨by decide, ?_, ?_⟩, by decide⟩, by decide +kernel⟩
  · intro value stored
    cases stored
    exact .listing (by decide) (by decide)
  · intro path required condition
    cases condition
    decide

/-- The record is read from the front of other octets, and a barrier under its number does not begin
like it. -/
theorem conditional_delimited :
    conditional.Countable ∧ Codec.ofBinary? (Codec.put conditional ++ [0, 255]) = some conditional ∧
      ¬ Codec.put conditional <+: Codec.put (⟨5, .ofNat 7, .barrier⟩ : LogRecord) := by
  have barrier : LogRecord.Countable ⟨5, .ofNat 7, .barrier⟩ :=
    ⟨by decide, trivial, by decide +kernel⟩
  refine ⟨countable_conditional, ?_, ?_⟩
  · exact binary_selfDelimiting.1.decoded _ countable_conditional _
  · intro begins
    have same := binary_selfDelimiting.1.prefixFree _ _ countable_conditional barrier begins
    exact absurd (congrArg LogRecord.body same) nofun

end Sample

/-! ### The manifest -/

namespace Json

/-- A blank in front of what is read is skipped. -/
theorem skipBlanks_blank {b : UInt8} (blank : isBlankByte b = true) (rest : Bytes) :
    skipBlanks (b :: rest) = skipBlanks rest := by
  simp [skipBlanks, blank]

theorem skipBlanks_line (level : Nat) (rest : Bytes) :
    skipBlanks (lineStart level ++ rest) = skipBlanks rest := by
  unfold lineStart
  rw [List.cons_append, skipBlanks_blank rfl]
  induction 2 * level with
  | zero => rfl
  | succ count ih => rw [List.replicate_succ, List.cons_append, skipBlanks_blank rfl, ih]

theorem value?_blank (fuel : Nat) (bytes : Bytes) :
    value? fuel (0x20 :: bytes) = value? fuel bytes := by
  cases fuel with
  | zero => rfl
  | succ fuel => rw [value?, value?, skipBlanks_blank rfl]

theorem members?_line (fuel level : Nat) (bytes : Bytes) :
    members? fuel (lineStart level ++ bytes) = members? fuel bytes := by
  cases fuel with
  | zero => rfl
  | succ fuel => rw [members?, members?, skipBlanks_line]

/-- A member with a blank after its colon, and another one on the line after it. -/
theorem members?_spaced (level : Nat) {fuel : Nat} {name : Bytes} (isName : IsName name)
    {value : Json} {written rest : Bytes}
    (read : value? fuel written = some (value, 0x2c :: (lineStart level ++ rest))) :
    members? (fuel + 1) (0x22 :: (name ++ 0x22 :: 0x3a :: 0x20 :: written)) =
      (members? fuel rest).map fun more => ((name, value) :: more.1, more.2) := by
  have body := isName (0x3a :: 0x20 :: written)
  rw [members?, skipBlanks_cons rfl]
  simp only [body, Option.bind_eq_bind, Option.bind_some, skipBlanks_cons (b := 0x3a) rfl,
    value?_blank, read, skipBlanks_cons (b := 0x2c) rfl, members?_line]
  cases members? fuel rest <;> rfl

/-- The last member, with the end of the object on the line after it. -/
theorem members?_spacedLast (level : Nat) {fuel : Nat} {name : Bytes} (isName : IsName name)
    {value : Json} {written rest : Bytes}
    (read : value? fuel written = some (value, lineStart level ++ 0x7d :: rest)) :
    members? (fuel + 1) (0x22 :: (name ++ 0x22 :: 0x3a :: 0x20 :: written)) =
      some ([(name, value)], rest) := by
  have body := isName (0x3a :: 0x20 :: written)
  rw [members?, skipBlanks_cons rfl]
  simp only [body, Option.bind_eq_bind, Option.bind_some, skipBlanks_cons (b := 0x3a) rfl,
    value?_blank, read, skipBlanks_line, skipBlanks_cons (b := 0x7d) rfl]
  rfl

/-- An object of a number and a string over several lines is read back. -/
theorem parse?_pretty_pair (first second : String) (n : Int) (text : String) :
    parse? (ofMembers [(first, ofInt n), (second, ofText text)]).pretty =
      some (ofMembers [(first, ofInt n), (second, ofText text)]) := by
  have isName (text : String) : IsName (escape (Text.utf8 text)) := stringBody?_escape _
  let content : Bytes := 0x22 :: (escape (Text.utf8 text) ++ 0x22 :: (lineStart 0 ++ [0x7d]))
  let last : Bytes := 0x22 :: (escape (Text.utf8 second) ++ 0x22 :: 0x3a :: 0x20 :: content)
  let lines : Bytes := 0x22 :: (escape (Text.utf8 first) ++
    0x22 :: 0x3a :: 0x20 :: ((ofInt n).print ++ 0x2c :: (lineStart 1 ++ last)))
  have written : (ofMembers [(first, ofInt n), (second, ofText text)]).pretty =
      0x7b :: (lineStart 1 ++ lines) := by
    simp [pretty, ofMembers, prettyAt, prettyMembers, block, linesAt, ofInt, ofText, print, lines,
      last, content]
  obtain ⟨fuel, enough, fuel_eq⟩ : ∃ fuel, 2 * (ofInt n).print.length ≤ fuel + 2 ∧
      2 * (0x7b :: (lineStart 1 ++ lines)).length + 2 = fuel + 4 := by
    refine ⟨2 * (lineStart 1 ++ lines).length, ?_, by rw [List.length_cons]; omega⟩
    simp only [lines, List.length_append, List.length_cons]
    omega
  have number : value? (fuel + 2) ((ofInt n).print ++ 0x2c :: (lineStart 1 ++ last)) =
      some (ofInt n, 0x2c :: (lineStart 1 ++ last)) :=
    readsBack (standard_ofInt n) (fuel + 2) _ enough (by simp [Ends])
  have string : value? (fuel + 1) content = some (ofText text, lineStart 0 ++ [0x7d]) := by
    rw [value?, skipBlanks_cons rfl]
    simp only [stringBody?_escape]
    rfl
  have members := members?_spaced 1 (isName first) number
  rw [members?_spacedLast 0 (isName second) string, Option.map_some] at members
  have read : value? (fuel + 4) (0x7b :: (lineStart 1 ++ lines)) =
      some (ofMembers [(first, ofInt n), (second, ofText text)], []) := by
    rw [value?, skipBlanks_cons rfl]
    simp only [lines, skipBlanks_line, skipBlanks_cons (b := 0x22) rfl]
    split
    · rename_i same
      cases same
    · rw [members]
      rfl
  rw [written, parse?, fuel_eq, read]
  rfl

end Json

theorem StateFormat.ofJson?_toJson (depth : Nat) (format : StateFormat) :
    Codec.ofJson? depth (Codec.toJson format) = some format := by
  have choice (name : String) : Json.choice? depth (.ofText name) = some ⟨name, none⟩ := by
    rw [Json.ofText, Json.choice?, Json.textOf?_escape, Option.map_some]
  cases format <;>
    simp only [Codec.toJson, Codec.ofJson?, choice, Option.bind_eq_bind, Option.bind_some] <;> rfl

theorem Json.word32?_ofNat (depth : Nat) {n : Nat} (word : n < UInt32.size) :
    word32? depth (.ofNat n) = some n := by
  have inside : 0 ≤ (n : Int) ∧ (n : Int) < UInt32.size :=
    ⟨Int.natCast_nonneg _, Int.ofNat_lt.mpr word⟩
  have int : (ofNat n).int? = some (n : Int) := int?_ofInt n
  rw [word32?, natBelow?, int, Option.bind_eq_bind, Option.bind_some, if_pos inside,
    Int.toNat_natCast]
  rfl

/-- A manifest is read back from its members. -/
theorem Manifest.ofJson?_toJson (manifest : Manifest) (depth : Nat)
    (word : manifest.version < UInt32.size) :
    Codec.ofJson? (depth + 1) (Codec.toJson manifest) = some manifest := by
  have slots := Json.slots?_pair (by decide : "version" ≠ "format") depth
    (.ofNat manifest.version) (Codec.toJson manifest.format)
  change (Json.slots? ["version", "format"] (depth + 1) (.ofMembers
    [("version", .ofNat manifest.version), ("format", Codec.toJson manifest.format)])).bind _ = _
  rw [slots, Option.bind_some]
  simp only [Json.required_first, Json.required_second, Json.word32?_ofNat depth word,
    StateFormat.ofJson?_toJson, Option.bind_eq_bind, Option.bind_some]
  rfl

/-- A manifest comes back from the text of its file. -/
theorem Manifest.ofJsonText?_pretty {manifest : Manifest} (word : manifest.version < UInt32.size) :
    Codec.ofJsonText? (Codec.toJson manifest).pretty = some manifest := by
  have named : Codec.toJson manifest.format = .ofText manifest.format.text := by
    cases manifest.format <;> rfl
  have parsed : Json.parse? (Codec.toJson manifest).pretty = some (Codec.toJson manifest) := by
    change Json.parse? (Json.ofMembers
      [("version", .ofInt manifest.version), ("format", Codec.toJson manifest.format)]).pretty =
      some (Json.ofMembers
        [("version", .ofInt manifest.version), ("format", Codec.toJson manifest.format)])
    rw [named, Json.parse?_pretty_pair]
  rw [Codec.ofJsonText?, parsed]
  exact manifest.ofJson?_toJson 126 word

end StateTree
