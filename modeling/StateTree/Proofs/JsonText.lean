/-
Module: StateTree.Proofs.JsonText
Purpose: Parsing what was printed. Octets come back from their escapes and integers from their
  digits, and a value whose strings and numbers were written here comes back whole.
-/
import StateTree.Format.Json.Read
import StateTree.Proofs.PathText

namespace StateTree.Json

/-! ### Strings -/

/-- A control character is escaped as a code unit that stands for it; there are 32 of them to
check. -/
theorem escapedControl_facts : ∀ b : UInt8, b < 0x20 →
    unitOfHex? 0x30 0x30 (UInt8.ofNat (Text.lowerHexDigit (b.toNat / 16)).toNat)
        (UInt8.ofNat (Text.lowerHexDigit (b.toNat % 16)).toNat) = some b.toNat ∧
      String.utf8EncodeChar (Char.ofNat b.toNat) = [b] ∧
      isHexDigit (UInt8.ofNat (Text.lowerHexDigit (b.toNat / 16)).toNat) = true ∧
      isHexDigit (UInt8.ofNat (Text.lowerHexDigit (b.toNat % 16)).toNat) = true := by
  apply forall_byte
  decide +kernel

/-- How an octet is written in a string: as a letter after a backslash, as four digits, or as it
is. -/
theorem escapeByte_cases (b : UInt8) :
    (∃ letter, escapeByte b = [0x5c, letter] ∧ letter ≠ 0x75 ∧ escapedLetter? letter = some b) ∨
      (b < 0x20 ∧ ∃ high low, escapeByte b = [0x5c, 0x75, 0x30, 0x30, high, low] ∧
        (unitOfHex? 0x30 0x30 high low = some b.toNat ∧
          String.utf8EncodeChar (Char.ofNat b.toNat) = [b]) ∧
            isHexDigit high = true ∧ isHexDigit low = true) ∨
      (escapeByte b = [b] ∧ b ≠ 0x22 ∧ b ≠ 0x5c ∧ ¬ b < 0x20) := by
  unfold escapeByte
  split
  · rename_i same
    exact Or.inl ⟨0x22, rfl, by decide, by rw [same]; rfl⟩
  split
  · rename_i same
    exact Or.inl ⟨0x5c, rfl, by decide, by rw [same]; rfl⟩
  split
  · rename_i same
    exact Or.inl ⟨0x62, rfl, by decide, by rw [same]; rfl⟩
  split
  · rename_i same
    exact Or.inl ⟨0x66, rfl, by decide, by rw [same]; rfl⟩
  split
  · rename_i same
    exact Or.inl ⟨0x6e, rfl, by decide, by rw [same]; rfl⟩
  split
  · rename_i same
    exact Or.inl ⟨0x72, rfl, by decide, by rw [same]; rfl⟩
  split
  · rename_i same
    exact Or.inl ⟨0x74, rfl, by decide, by rw [same]; rfl⟩
  split
  · rename_i control
    obtain ⟨unit, encodes, high, low⟩ := escapedControl_facts b control
    exact Or.inr (Or.inl ⟨control, _, _, rfl, ⟨unit, encodes⟩, high, low⟩)
  · rename_i noQuote noBackslash _ _ _ _ _ noControl
    exact Or.inr (Or.inr ⟨rfl, noQuote, noBackslash, noControl⟩)

theorem unescape?_plain {b : UInt8} (plain : b ≠ 0x5c) (rest : Bytes) :
    unescape? (b :: rest) = (unescape? rest).map (b :: ·) := by
  rw [unescape?.eq_def]
  split <;> simp_all

theorem unescape?_letter {letter b : UInt8} (other : letter ≠ 0x75)
    (stands : escapedLetter? letter = some b) (rest : Bytes) :
    unescape? (0x5c :: letter :: rest) = (unescape? rest).map (b :: ·) := by
  rw [unescape?.eq_def]
  split
  · rename_i same
    cases same
  · rename_i same
    cases same
    exact absurd rfl other
  · rename_i same
    cases same
    rw [stands]
    cases unescape? rest <;> rfl
  · rename_i same
    cases same
    simp_all

theorem unescape?_control {b high low : UInt8} (control : b < 0x20)
    (unit : unitOfHex? 0x30 0x30 high low = some b.toNat) (rest : Bytes) :
    unescape? (0x5c :: 0x75 :: 0x30 :: 0x30 :: high :: low :: rest) =
      (unescape? rest).map (String.utf8EncodeChar (Char.ofNat b.toNat) ++ ·) := by
  have small : b.toNat < 0x20 := control
  rw [unescape?, unit, Option.bind_eq_bind, Option.bind_some, if_neg (by omega), if_neg (by omega)]
  cases unescape? rest <;> rfl

/-- An octet is read back from its escape, and the others follow. -/
theorem unescape?_escapeByte (b : UInt8) (rest : Bytes) :
    unescape? (escapeByte b ++ rest) = (unescape? rest).map (b :: ·) := by
  rcases escapeByte_cases b with ⟨letter, written, other, stands⟩ |
    ⟨control, high, low, written, ⟨unit, encodes⟩, -⟩ | ⟨written, -, plain, -⟩
  · rw [written]
    exact unescape?_letter other stands rest
  · have back := unescape?_control control unit rest
    rw [encodes] at back
    rw [written]
    exact back
  · rw [written]
    exact unescape?_plain plain rest

/-- Octets come back from their escapes. -/
theorem unescape?_escape (bytes : Bytes) : unescape? (escape bytes) = some bytes := by
  unfold escape
  induction bytes with
  | nil => rfl
  | cons b bytes ih =>
      rw [List.flatMap_cons, unescape?_escapeByte, ih]
      rfl

/-- A text is read back from its escape. -/
theorem textOf?_escape (text : String) : textOf? (escape (Text.utf8 text)) = some text := by
  rw [textOf?, unescape?_escape, Option.bind_eq_bind, Option.bind_some, Text.ofUtf8?_utf8]

theorem stringBody?_plain {b : UInt8} (noQuote : b ≠ 0x22) (noBackslash : b ≠ 0x5c)
    (noControl : ¬ b < 0x20) (rest : Bytes) :
    stringBody? (b :: rest) =
      (stringBody? rest).map fun body => (b :: body.1, body.2) := by
  rw [stringBody?.eq_def]
  split
  · rename_i same
    cases same
  · rename_i same
    cases same
    exact absurd rfl noQuote
  · rename_i same
    cases same
    exact absurd rfl noBackslash
  · rename_i same
    cases same
    exact absurd rfl noBackslash
  · rename_i same
    cases same
    rw [if_neg (not_or.mpr ⟨noControl, noBackslash⟩)]

/-- The escape of an octet does not end a string. -/
theorem stringBody?_escapeByte (b : UInt8) (rest : Bytes) :
    stringBody? (escapeByte b ++ rest) =
      (stringBody? rest).map fun body => (escapeByte b ++ body.1, body.2) := by
  rcases escapeByte_cases b with ⟨letter, written, other, stands⟩ |
    ⟨control, high, low, written, -, highDigit, lowDigit⟩ | ⟨written, noQuote, plain, noControl⟩
  · rw [written]
    have some : (escapedLetter? letter).isSome = true := by
      rw [stands]
      rfl
    change stringBody? (0x5c :: letter :: rest) = _
    rw [stringBody?.eq_def]
    split
    · rename_i same
      cases same
    · rename_i same
      cases same
    · rename_i same
      cases same
      exact absurd rfl other
    · rename_i same
      cases same
      rw [if_pos some]
      rfl
    · rename_i same
      cases same
      simp_all
  · rw [written]
    simp only [List.cons_append, List.nil_append, stringBody?, highDigit, lowDigit]
    rfl
  · rw [written]
    exact stringBody?_plain noQuote plain noControl rest

/-- A written string ends at the quote after it. -/
theorem stringBody?_escape (bytes rest : Bytes) :
    stringBody? (escape bytes ++ 0x22 :: rest) = some (escape bytes, rest) := by
  unfold escape
  induction bytes with
  | nil => rfl
  | cons b bytes ih =>
      rw [List.flatMap_cons, List.append_assoc, stringBody?_escapeByte, ih]
      rfl

/-! ### Integers -/

/-- The octet of a digit. -/
def digitByte (c : Char) : UInt8 := UInt8.ofNat c.toNat

/-- A digit is written as one octet, which tells its value. -/
theorem digitByte_facts {c : Char} (digit : c.isDigit = true) :
    String.utf8EncodeChar c = [digitByte c] ∧ isDigit (digitByte c) = true ∧
      (digitByte c).toNat - 0x30 = c.toNat - '0'.toNat ∧ (digitByte c = 0x30 → c = '0') := by
  have every : ∀ n < 58, 48 ≤ n →
      String.utf8EncodeChar (Char.ofNat n) = [digitByte (Char.ofNat n)] ∧
        isDigit (digitByte (Char.ofNat n)) = true ∧
          (digitByte (Char.ofNat n)).toNat - 0x30 = (Char.ofNat n).toNat - '0'.toNat ∧
            (digitByte (Char.ofNat n) = 0x30 → Char.ofNat n = '0') := by
    decide +kernel
  have bounds : 48 ≤ c.toNat ∧ c.toNat ≤ 57 := by
    simpa [Char.isDigit, UInt32.le_iff_toNat_le] using digit
  have here := every c.toNat (by omega) bounds.1
  rwa [Char.ofNat_toNat] at here

theorem utf8_ofList_digits {chars : List Char} (digits : ∀ c ∈ chars, c.isDigit = true) :
    Text.utf8 (String.ofList chars) = chars.map digitByte := by
  unfold Text.utf8
  rw [String.toByteArray_ofList]
  induction chars with
  | nil => rfl
  | cons c rest ih =>
      obtain ⟨first, others⟩ := List.forall_mem_cons.mp digits
      rw [List.utf8Encode_cons, List.utf8Encode_singleton, (digitByte_facts first).1]
      simp [ih others]

/-- A natural number is written in its decimal digits. -/
theorem utf8_natural (n : Nat) : Text.utf8 (toString n) = (Nat.toDigits 10 n).map digitByte := by
  rw [Nat.toString_eq_ofList_toDigits]
  apply utf8_ofList_digits
  exact fun c member => Nat.isDigit_of_mem_toDigits (by decide) (by decide) member

theorem head_toDigits {n : Nat} (positive : n ≠ 0) :
    ∃ first rest, Nat.toDigits 10 n = first :: rest ∧ first ≠ '0' := by
  induction n using Nat.strongRecOn with
  | ind n ih =>
      rcases Nat.lt_or_ge n 10 with small | large
      · have nonzero : ∀ digit < 10, digit ≠ 0 → digit.digitChar ≠ '0' := by decide
        exact ⟨_, _, Nat.toDigits_of_lt_base small, nonzero n small positive⟩
      · obtain ⟨first, rest, digits, nonzero⟩ := ih (n / 10) (by omega) (by omega)
        refine ⟨first, rest ++ [(n % 10).digitChar], ?_, nonzero⟩
        rw [Nat.toDigits_of_base_le (by decide) large, digits]
        rfl

/-- A number ends where nothing follows it, or what stands between values. -/
def Ends (rest : Bytes) : Prop := ∀ b ∈ rest.head?, b = 0x2c ∨ b = 0x5d ∨ b = 0x7d

theorem all_isDigit_natural (n : Nat) : ∀ b ∈ Text.utf8 (toString n), isDigit b = true := by
  rw [utf8_natural]
  intro b member
  obtain ⟨c, there, rfl⟩ := List.mem_map.mp member
  exact (digitByte_facts (Nat.isDigit_of_mem_toDigits (by decide) (by decide) there)).2.1

theorem foldl_digitByte {chars : List Char} (digits : ∀ c ∈ chars, c.isDigit = true) (start : Nat) :
    (chars.map digitByte).foldl (fun n b => 10 * n + (b.toNat - 0x30)) start =
      Nat.ofDigitChars 10 chars start := by
  unfold Nat.ofDigitChars
  induction chars generalizing start with
  | nil => rfl
  | cons c rest ih =>
      obtain ⟨first, others⟩ := List.forall_mem_cons.mp digits
      rw [List.map_cons, List.foldl_cons, List.foldl_cons, (digitByte_facts first).2.2.1]
      exact ih others _

/-- A natural number is written as digits, and a zero is only ever the whole of it. -/
theorem utf8_natural_cons (n : Nat) : ∃ first rest,
    Text.utf8 (toString n) = first :: rest ∧ isDigit first = true ∧ (n = 0 ∨ first ≠ 0x30) := by
  have digits := all_isDigit_natural n
  rcases Nat.eq_zero_or_pos n with rfl | positive
  · exact ⟨_, _, rfl, rfl, Or.inl rfl⟩
  · obtain ⟨first, rest, written, nonzero⟩ := head_toDigits (Nat.ne_of_gt positive)
    have digit : first.isDigit = true := by
      apply Nat.isDigit_of_mem_toDigits (b := 10) (n := n) (by decide) (by decide)
      rw [written]
      exact List.mem_cons_self
    obtain ⟨-, same, -, zero⟩ := digitByte_facts digit
    refine ⟨digitByte first, rest.map digitByte, ?_, same, Or.inr fun none => nonzero (zero none)⟩
    rw [utf8_natural, written]
    rfl

/-- The digits of a natural number tell the number. -/
theorem natOfDigits?_natural (n : Nat) : natOfDigits? (Text.utf8 (toString n)) = some n := by
  obtain ⟨first, rest, written, -⟩ := utf8_natural_cons n
  have nonempty : (Text.utf8 (toString n)).isEmpty = false := by
    rw [written]
    rfl
  have digits : (Text.utf8 (toString n)).all isDigit = true :=
    List.all_eq_true.mpr (all_isDigit_natural n)
  unfold natOfDigits?
  rw [digits, nonempty, if_neg (by simp), utf8_natural, foldl_digitByte,
    Nat.ofDigitChars_ten_toDigits]
  exact fun c member => Nat.isDigit_of_mem_toDigits (by decide) (by decide) member

/-- Digits are read up to the first octet that is none. -/
theorem digits?_append {digits rest : Bytes} (nonempty : digits ≠ [])
    (every : ∀ b ∈ digits, isDigit b = true) (ends : Ends rest) :
    digits? (digits ++ rest) = some (digits, rest) := by
  have stops : rest.takeWhile isDigit = [] ∧ rest.dropWhile isDigit = rest := by
    cases rest with
    | nil => exact ⟨rfl, rfl⟩
    | cons b rest =>
        have noDigit : isDigit b = false := by
          rcases ends b rfl with rfl | rfl | rfl <;> rfl
        simp [noDigit]
  unfold digits?
  rw [List.takeWhile_append_of_pos every, List.dropWhile_append_of_pos every, stops.1, stops.2,
    List.append_nil]
  cases digits with
  | nil => exact absurd rfl nonempty
  | cons b digits => rfl

/-- Where a number ends there is neither a fraction nor an exponent. -/
theorem Ends.fractionPart? {rest : Bytes} (ends : Ends rest) :
    fractionPart? rest = some ([], rest) := by
  cases rest with
  | nil => rfl
  | cons b rest => rcases ends b rfl with rfl | rfl | rfl <;> rfl

theorem Ends.exponentPart? {rest : Bytes} (ends : Ends rest) :
    exponentPart? rest = some ([], rest) := by
  cases rest with
  | nil => rfl
  | cons b rest => rcases ends b rfl with rfl | rfl | rfl <;> rfl

theorem integerPart?_natural (n : Nat) {rest : Bytes} (ends : Ends rest) :
    integerPart? (Text.utf8 (toString n) ++ rest) = some (Text.utf8 (toString n), rest) := by
  obtain ⟨first, more, written, -, zero⟩ := utf8_natural_cons n
  rcases zero with rfl | nonzero
  · rfl
  · have digits := digits?_append (written ▸ List.cons_ne_nil _ _) (all_isDigit_natural n) ends
    rw [written, List.cons_append] at digits ⊢
    rw [integerPart?, digits]
    exact fun _ same => nonzero (List.cons.inj same).1

/-- A natural number is read as a whole, up to where it ends. -/
theorem unsignedNumber?_natural (n : Nat) {rest : Bytes} (ends : Ends rest) :
    unsignedNumber? (Text.utf8 (toString n) ++ rest) = some (Text.utf8 (toString n), rest) := by
  simp only [unsignedNumber?, integerPart?_natural n ends, ends.fractionPart?, ends.exponentPart?,
    Option.bind_eq_bind, Option.bind_some, Option.pure_def, List.append_nil]

/-- An integer is written as a natural number, after a sign if it is negative. -/
theorem utf8_integer (n : Int) :
    (∃ k : Nat, n = k ∧ Text.utf8 (toString n) = Text.utf8 (toString k)) ∨
      ∃ k : Nat, k ≠ 0 ∧ n = -k ∧ Text.utf8 (toString n) = 0x2d :: Text.utf8 (toString k) := by
  cases n with
  | ofNat k => exact Or.inl ⟨k, rfl, rfl⟩
  | negSucc k =>
      refine Or.inr ⟨k + 1, Nat.succ_ne_zero k, rfl, ?_⟩
      have split : Text.utf8 ("-" ++ toString (k + 1)) =
          Text.utf8 "-" ++ Text.utf8 (toString (k + 1)) := by
        simp [Text.utf8]
      exact split

theorem ne_minus {b : UInt8} (digit : isDigit b = true) : b ≠ 0x2d := by
  rintro rfl
  cases digit

/-- An integer is read as a whole as well, its sign included. -/
theorem number?_integer (n : Int) {rest : Bytes} (ends : Ends rest) :
    number? (Text.utf8 (toString n) ++ rest) = some (Text.utf8 (toString n), rest) := by
  rcases utf8_integer n with ⟨k, -, written⟩ | ⟨k, -, -, written⟩
  · have read := unsignedNumber?_natural k ends
    obtain ⟨first, more, digits, digit, -⟩ := utf8_natural_cons k
    rw [written]
    rw [digits, List.cons_append] at read ⊢
    rw [number?, read]
    exact fun _ same => absurd (List.cons.inj same).1 (ne_minus digit)
  · rw [written, List.cons_append, number?, unsignedNumber?_natural k ends]
    rfl

/-- The text of an integer tells the integer. -/
theorem intOf?_integer (n : Int) : intOf? (Text.utf8 (toString n)) = some n := by
  rcases utf8_integer n with ⟨k, rfl, written⟩ | ⟨k, positive, rfl, written⟩
  · have read := natOfDigits?_natural k
    obtain ⟨first, more, digits, digit, -⟩ := utf8_natural_cons k
    rw [written]
    rw [digits] at read ⊢
    rw [intOf?, read]
    · rfl
    · exact fun _ same => absurd (List.cons.inj same).1 (ne_minus digit)
  · rw [written, intOf?, natOfDigits?_natural, Option.bind_eq_bind, Option.bind_some,
      if_neg positive]
    rfl

theorem integer_cons (n : Int) : ∃ first rest, Text.utf8 (toString n) = first :: rest ∧
    (isDigit first = true ∨ first = 0x2d) := by
  rcases utf8_integer n with ⟨k, -, written⟩ | ⟨k, -, -, written⟩
  · obtain ⟨first, rest, digits, digit, -⟩ := utf8_natural_cons k
    exact ⟨first, rest, written.trans digits, Or.inl digit⟩
  · exact ⟨_, _, written, Or.inr rfl⟩

/-! ### Values -/

/-- Values whose strings and numbers were written from octets and integers. -/
inductive Standard : Json → Prop where
  | null : Standard .null
  | bool (value : Bool) : Standard (.bool value)
  | number (n : Int) : Standard (.number (Text.utf8 (toString n)))
  | string (bytes : Bytes) : Standard (.string (escape bytes))
  | array {items : List Json} (below : ∀ item ∈ items, Standard item) : Standard (.array items)
  | object {members : List (Bytes × Json)}
      (names : ∀ member ∈ members, ∃ bytes, member.1 = escape bytes)
      (below : ∀ member ∈ members, Standard member.2) : Standard (.object members)

theorem commaSeparated_cons (piece : Bytes) {rest : List Bytes} (more : rest ≠ []) :
    commaSeparated (piece :: rest) = piece ++ 0x2c :: commaSeparated rest := by
  rw [commaSeparated]
  · simp
  · exact more

theorem commaSeparated_begins {piece : Bytes} (others : List Bytes) {first : UInt8} {more : Bytes}
    (written : piece = first :: more) :
    ∃ rest, commaSeparated (piece :: others) = first :: rest := by
  cases others with
  | nil => exact ⟨more, written⟩
  | cons next others =>
      rw [commaSeparated_cons piece (List.cons_ne_nil _ _), written]
      exact ⟨_, rfl⟩

/-- A value is read back, whatever ends it. -/
def ReadsBack (json : Json) : Prop :=
  ∀ fuel rest, 2 * (print json).length ≤ fuel → Ends rest →
    value? fuel (print json ++ rest) = some (json, rest)

/-- A number begins like no other value. -/
theorem numberByte_facts {b : UInt8} (starts : isDigit b = true ∨ b = 0x2d) :
    isBlankByte b = false ∧ b ≠ 0x5d ∧
      b ∉ ([0x6e, 0x74, 0x66, 0x22, 0x5b, 0x7b] : List UInt8) := by
  revert b
  apply forall_byte
  decide +kernel

/-- A value begins with an octet that is no blank and closes nothing. -/
theorem print_cons {json : Json} (standard : Standard json) : ∃ first rest,
    print json = first :: rest ∧ isBlankByte first = false ∧ first ≠ 0x5d := by
  cases standard with
  | null => exact ⟨_, _, rfl, rfl, by decide⟩
  | bool value => cases value <;> exact ⟨_, _, rfl, rfl, by decide⟩
  | number n =>
      obtain ⟨first, rest, written, digit⟩ := integer_cons n
      exact ⟨first, rest, written, (numberByte_facts digit).1, (numberByte_facts digit).2.1⟩
  | string bytes => exact ⟨_, _, rfl, rfl, by decide⟩
  | array below => exact ⟨_, _, rfl, rfl, by decide⟩
  | object names below => exact ⟨_, _, rfl, rfl, by decide⟩

theorem skipBlanks_cons {b : UInt8} (mark : isBlankByte b = false) (rest : Bytes) :
    skipBlanks (b :: rest) = b :: rest := by
  simp [skipBlanks, mark]

/-- The items of an array are read one after the other, by induction on them. -/
theorem items?_print {items : List Json}
    (back : ∀ item ∈ items, ReadsBack item) (nonempty : items ≠ []) (fuel : Nat) (rest : Bytes)
    (enough : 2 * (commaSeparated (printItems items)).length + 1 ≤ fuel) :
    items? fuel (commaSeparated (printItems items) ++ 0x5d :: rest) = some (items, rest) := by
  induction items generalizing fuel with
  | nil => exact absurd rfl nonempty
  | cons item items ih =>
      obtain ⟨first, others⟩ := List.forall_mem_cons.mp back
      cases fuel with
      | zero => omega
      | succ fuel =>
          cases items with
          | nil =>
              have here := first fuel (0x5d :: rest)
              simp only [printItems, commaSeparated] at enough ⊢
              rw [items?, here (by omega) (by simp [Ends])]
              rfl
          | cons next items =>
              have more : printItems (next :: items) ≠ [] := by simp [printItems]
              have split := commaSeparated_cons (print item) more
              rw [printItems, split] at enough ⊢
              simp only [List.length_append, List.length_cons] at enough
              have here := first fuel
                (0x2c :: (commaSeparated (printItems (next :: items)) ++ 0x5d :: rest))
                (by omega) (by simp [Ends])
              have later := ih others (by simp) fuel (by omega)
              rw [List.append_assoc, List.cons_append, items?, here]
              simp only [Option.bind_eq_bind, Option.bind_some]
              rw [skipBlanks_cons rfl]
              simp only [later]
              rfl

/-- A name as it stands in an object. -/
def IsName (name : Bytes) : Prop := ∀ rest, stringBody? (name ++ 0x22 :: rest) = some (name, rest)

/-- The last member of an object is read up to the closing brace, and one before it up to the
comma. -/
theorem members?_last {fuel : Nat} {name : Bytes} (isName : IsName name) {value : Json}
    {rest : Bytes}
    (read : value? fuel (print value ++ 0x7d :: rest) = some (value, 0x7d :: rest)) :
    members? (fuel + 1) ([0x22] ++ name ++ [0x22, 0x3a] ++ print value ++ 0x7d :: rest) =
      some ([(name, value)], rest) := by
  have body := isName (0x3a :: (print value ++ 0x7d :: rest))
  simp only [List.append_assoc, List.cons_append, List.nil_append]
  rw [members?, skipBlanks_cons rfl]
  simp only [body, Option.bind_eq_bind, Option.bind_some, skipBlanks_cons (b := 0x3a) rfl, read,
    skipBlanks_cons (b := 0x7d) rfl]
  rfl

theorem members?_more {fuel : Nat} {name : Bytes} (isName : IsName name) {value : Json}
    {rest : Bytes}
    (read : value? fuel (print value ++ 0x2c :: rest) = some (value, 0x2c :: rest)) :
    members? (fuel + 1) ([0x22] ++ name ++ [0x22, 0x3a] ++ print value ++ 0x2c :: rest) =
      (members? fuel rest).map fun more => ((name, value) :: more.1, more.2) := by
  have body := isName (0x3a :: (print value ++ 0x2c :: rest))
  simp only [List.append_assoc, List.cons_append, List.nil_append]
  rw [members?, skipBlanks_cons rfl]
  simp only [body, Option.bind_eq_bind, Option.bind_some, skipBlanks_cons (b := 0x3a) rfl, read,
    skipBlanks_cons (b := 0x2c) rfl]
  cases members? fuel rest <;> rfl

/-- The members of an object are read one after the other. -/
theorem members?_print {members : List (Bytes × Json)}
    (names : ∀ member ∈ members, IsName member.1)
    (back : ∀ member ∈ members, ReadsBack member.2) (nonempty : members ≠ []) (fuel : Nat)
    (rest : Bytes)
    (enough : 2 * (commaSeparated (printMembers members)).length + 1 ≤ fuel) :
    members? fuel (commaSeparated (printMembers members) ++ 0x7d :: rest) =
      some (members, rest) := by
  induction members generalizing fuel with
  | nil => exact absurd rfl nonempty
  | cons member members ih =>
      obtain ⟨name, value⟩ := member
      obtain ⟨isName, otherNames⟩ := List.forall_mem_cons.mp names
      obtain ⟨first, others⟩ := List.forall_mem_cons.mp back
      dsimp only at isName first
      cases fuel with
      | zero => omega
      | succ fuel =>
          cases members with
          | nil =>
              simp only [printMembers, commaSeparated, List.length_append,
                List.length_cons] at enough
              exact members?_last isName (first fuel (0x7d :: rest) (by omega) (by simp [Ends]))
          | cons next members =>
              have more : printMembers (next :: members) ≠ [] := by simp [printMembers]
              have split := commaSeparated_cons ([0x22] ++ name ++ [0x22, 0x3a] ++ print value) more
              rw [printMembers, split] at enough ⊢
              simp only [List.length_append, List.length_cons] at enough
              have read := first fuel
                (0x2c :: (commaSeparated (printMembers (next :: members)) ++ 0x7d :: rest))
                (by omega) (by simp [Ends])
              have later := ih otherNames others (by simp) fuel (by omega)
              have joined := members?_more isName read
              rw [later] at joined
              rw [List.append_assoc]
              exact joined

/-- A digit or a sign begins a number. -/
theorem value?_number {fuel : Nat} {first : UInt8} (starts : isDigit first = true ∨ first = 0x2d)
    (rest : Bytes) :
    value? (fuel + 1) (first :: rest) =
      (number? (first :: rest)).map fun number => (.number number.1, number.2) := by
  obtain ⟨mark, -, other⟩ := numberByte_facts starts
  rw [value?, skipBlanks_cons mark]
  split
  case h_7 => rfl
  all_goals
    rename_i same
    cases same
    exact absurd (by decide) other

/-- An array reads back if its items do. -/
theorem readsBack_array {items : List Json} (standard : ∀ item ∈ items, Standard item)
    (back : ∀ item ∈ items, ReadsBack item) : ReadsBack (.array items) := by
  intro fuel rest enough ends
  simp only [print, List.append_assoc, List.cons_append, List.nil_append, List.length_cons,
    List.length_append, List.length_nil] at enough ⊢
  cases fuel with
  | zero => omega
  | succ fuel =>
      rw [value?, skipBlanks_cons rfl]
      cases items with
      | nil => rfl
      | cons item items =>
          have read := items?_print back (List.cons_ne_nil _ _) fuel rest (by omega)
          obtain ⟨first, more, written, mark, closes⟩ :=
            print_cons (standard item List.mem_cons_self)
          obtain ⟨others, pieces⟩ := commaSeparated_begins (printItems items) written
          rw [printItems, pieces, List.cons_append] at read
          simp only [printItems, pieces, List.cons_append, skipBlanks_cons mark]
          split
          · rename_i same
            exact absurd (List.cons.inj same).1 closes
          · rw [read]
            rfl

/-- An object reads back if what stands in it does, under names that can be written. -/
theorem readsBack_object {members : List (Bytes × Json)}
    (names : ∀ member ∈ members, IsName member.1)
    (back : ∀ member ∈ members, ReadsBack member.2) : ReadsBack (.object members) := by
  intro fuel rest enough ends
  simp only [print, List.append_assoc, List.cons_append, List.nil_append, List.length_cons,
    List.length_append, List.length_nil] at enough ⊢
  cases fuel with
  | zero => omega
  | succ fuel =>
      rw [value?, skipBlanks_cons rfl]
      cases members with
      | nil => rfl
      | cons member members =>
          obtain ⟨name, value⟩ := member
          have read := members?_print names back (List.cons_ne_nil _ _) fuel rest (by omega)
          have written : [0x22] ++ name ++ [0x22, 0x3a] ++ print value =
            0x22 :: (name ++ [0x22, 0x3a] ++ print value) := rfl
          have begins := commaSeparated_begins (printMembers members) written
          obtain ⟨others, pieces⟩ : ∃ others,
            commaSeparated (printMembers ((name, value) :: members)) = 0x22 :: others := begins
          rw [pieces, List.cons_append] at read
          simp only [pieces, List.cons_append, skipBlanks_cons (b := 0x22) rfl]
          split
          · rename_i same
            cases same
          · rw [read]
            rfl

/-- What was written is read back. -/
theorem readsBack {json : Json} (standard : Standard json) : ReadsBack json := by
  induction standard with
  | null =>
      intro fuel rest enough ends
      cases fuel with
      | zero => cases enough
      | succ fuel => rfl
  | bool value =>
      intro fuel rest enough ends
      cases fuel with
      | zero => cases value <;> cases enough
      | succ fuel => cases value <;> rfl
  | number n =>
      intro fuel rest enough ends
      obtain ⟨first, more, written, starts⟩ := integer_cons n
      have read := number?_integer n ends
      simp only [print] at enough ⊢
      rw [written] at enough read ⊢
      cases fuel with
      | zero => cases enough
      | succ fuel =>
          rw [List.cons_append] at read ⊢
          rw [value?_number starts, read]
          rfl
  | string bytes =>
      intro fuel rest enough ends
      cases fuel with
      | zero => cases enough
      | succ fuel =>
          simp only [print, List.append_assoc, List.cons_append, List.nil_append]
          rw [value?, skipBlanks_cons rfl]
          simp only [stringBody?_escape]
          rfl
  | array below ih => exact readsBack_array below ih
  | object names below ih =>
      refine readsBack_object ?_ ih
      intro member there
      obtain ⟨bytes, written⟩ := names member there
      rw [written]
      exact stringBody?_escape bytes

/-- Reading a printed value gives it back. -/
theorem parse?_print {json : Json} (standard : Standard json) :
    parse? (print json) = some json := by
  have read := readsBack standard (2 * (print json).length + 2) [] (by omega) (by simp [Ends])
  rw [List.append_nil] at read
  simp [parse?, read, skipBlanks]
end StateTree.Json
