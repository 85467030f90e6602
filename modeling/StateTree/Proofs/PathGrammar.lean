/-
Module: StateTree.Proofs.PathGrammar
Purpose: The grammar of written paths. A text is read as a path exactly when it is a form of that
  path, where an escape is a percent sign with two hexadecimal digits, or with a plus sign and one
  of them. The grammar without the plus sign leaves out, of what is read, the texts with such an
  escape in a name and nothing else.
-/
import StateTree.Proofs.PathText
import StateTree.Proofs.Typing
import Mathlib.Data.List.Forall2

namespace StateTree

/-! ### The grammar -/

namespace Text

/-- The digits of numbers to the base sixteen with small letters, each at the place of its value. -/
def lowerDigits : List Char :=
  ['0', '1', '2', '3', '4', '5', '6', '7', '8', '9', 'a', 'b', 'c', 'd', 'e', 'f']

/-- The digits with capital letters. -/
def upperDigits : List Char :=
  ['0', '1', '2', '3', '4', '5', '6', '7', '8', '9', 'A', 'B', 'C', 'D', 'E', 'F']

/-- A hexadecimal digit of either case and its value. -/
def HexDigit (c : Char) (value : Nat) : Prop :=
  lowerDigits[value]? = some c ∨ upperDigits[value]? = some c

instance (c : Char) (value : Nat) : Decidable (HexDigit c value) :=
  inferInstanceAs (Decidable (_ ∨ _))

end Text

namespace Segment

/-- What two characters after a percent sign stand for. -/
abbrev Escape := Char → Char → UInt8 → Prop

/-- Two hexadecimal digits, the high one first. -/
def Digits : Escape := fun hi lo b =>
  ∃ h l, Text.HexDigit hi h ∧ Text.HexDigit lo l ∧ b.toNat = 16 * h + l

/-- Two hexadecimal digits, or a plus sign and one. -/
def SignedDigits : Escape := fun hi lo b =>
  Digits hi lo b ∨ hi = '+' ∧ Text.HexDigit lo b.toNat

/-- Characters that stand for these octets: escapes, and every character but the percent sign for
itself. -/
inductive Spells (escape : Escape) : List Char → Bytes → Prop where
  | done : Spells escape [] []
  | escaped {hi lo : Char} {b : UInt8} {raw : List Char} {bytes : Bytes} (pair : escape hi lo b)
      (rest : Spells escape raw bytes) : Spells escape ('%' :: hi :: lo :: raw) (b :: bytes)
  | plain {c : Char} {raw : List Char} {bytes : Bytes} (other : c ≠ '%')
      (rest : Spells escape raw bytes) : Spells escape (c :: raw) (String.utf8EncodeChar c ++ bytes)

/-- The written forms of a segment. -/
inductive Form (escape : Escape) : List Char → Segment → Prop where
  /-- A parameter is its label between dashes, as it stands. -/
  | parameter {label : List Char} (labelled : label ≠ []) (noDash : '-' ∉ label) :
      Form escape ('-' :: label ++ ['-']) (.parameter (String.ofList label))
  /-- A name is spelled octet by octet and does not begin with a dash. -/
  | name {raw : List Char} {text : String} (written : raw ≠ []) (noDash : raw.head? ≠ some '-')
      (spells : Spells escape raw (Text.utf8 text)) : Form escape raw (.name text)

/-- Whether a written segment is a name with a plus sign straight after a percent sign. -/
def HasSignedEscape (raw : List Char) : Prop := raw.head? ≠ some '-' ∧ ['%', '+'] <:+: raw

instance (raw : List Char) : Decidable (HasSignedEscape raw) :=
  inferInstanceAs (Decidable (_ ∧ _))

end Segment

/-- The written forms of a path: a single slash for the root, otherwise a slash before each segment
and at most one more at the end. -/
inductive Path.Form (escape : Segment.Escape) : List Char → Path → Prop where
  | root : Form escape ['/'] .root
  | segments {written : List (List Char)} {segments : List Segment} {closing : List Char}
      (below : written ≠ []) (apart : ∀ raw ∈ written, '/' ∉ raw)
      (forms : List.Forall₂ (Segment.Form escape) written segments)
      (closed : closing = [] ∨ closing = ['/']) :
      Form escape ((written.flatMap fun raw => '/' :: raw) ++ closing) ⟨segments⟩

/-- Every written form of a segment has a character. -/
theorem Segment.Form.ne_nil {escape : Segment.Escape} {raw : List Char} {segment : Segment}
    (form : Segment.Form escape raw segment) : raw ≠ [] := by
  cases form with
  | parameter => exact List.cons_ne_nil _ _
  | name written => exact written

/-! ### Escapes -/

namespace Text

variable {c : Char} {value : Nat}

theorem toNat_lt_of_hexValue? (valued : hexValue? c = some value) : c.toNat < 128 := by
  have below (last : Char) (small : last.toNat < 128) (within : c ≤ last) : c.toNat < 128 :=
    Nat.lt_of_le_of_lt within small
  unfold hexValue? at valued
  split at valued
  · rename_i range
    exact below '9' (by decide) range.2
  · split at valued
    · rename_i range
      exact below 'f' (by decide) range.2
    · split at valued
      · rename_i range
        exact below 'F' (by decide) range.2
      · cases valued

theorem hexValue?_eq_some_iff : hexValue? c = some value ↔ HexDigit c value := by
  constructor
  · intro valued
    have every : ∀ n < 128, (hexValue? (Char.ofNat n)).all
        (fun value => decide (HexDigit (Char.ofNat n) value)) = true := by
      decide +kernel
    have here := every c.toNat (toNat_lt_of_hexValue? valued)
    rw [Char.ofNat_toNat, valued] at here
    simpa using here
  · have table : ∀ digit ∈ lowerDigits.zipIdx ++ upperDigits.zipIdx,
        hexValue? digit.1 = some digit.2 := by decide +kernel
    intro digit
    refine table (c, value) (List.mem_append.mpr ?_)
    exact digit.imp List.mk_mem_zipIdx_iff_getElem?.mpr List.mk_mem_zipIdx_iff_getElem?.mpr

theorem HexDigit.lt (digit : HexDigit c value) : value < 16 := by
  rcases digit with lower | upper
  · exact (List.getElem?_eq_some_iff.mp lower).1
  · exact (List.getElem?_eq_some_iff.mp upper).1

/-- Neither sign is a digit. -/
theorem HexDigit.not_sign (digit : HexDigit c value) : c ≠ '+' ∧ c ≠ '%' := by
  rw [← hexValue?_eq_some_iff] at digit
  constructor
  · rintro rfl
    cases digit
  · rintro rfl
    cases digit

theorem ofNat_eq_iff {n : Nat} {b : UInt8} (small : n < 256) :
    UInt8.ofNat n = b ↔ b.toNat = n := by
  constructor
  · rintro rfl
    exact UInt8.toNat_ofNat_of_lt' small
  · rintro rfl
    exact UInt8.ofNat_toNat

end Text

namespace Segment

open Text in
theorem escapeValue?_eq_some_iff {hi lo : Char} {b : UInt8} :
    escapeValue? hi lo = some b ↔ SignedDigits hi lo b := by
  unfold escapeValue? SignedDigits Digits
  by_cases sign : hi = '+'
  · have undigital (value : Nat) : ¬ HexDigit '+' value := fun digit => digit.not_sign.1 rfl
    simp only [sign, if_true, Option.map_eq_some_iff, hexValue?_eq_some_iff, undigital, false_and,
      exists_false, true_and, false_or]
    constructor
    · rintro ⟨value, digit, valued⟩
      rw [ofNat_eq_iff (Nat.lt_of_lt_of_le digit.lt (by decide))] at valued
      rwa [valued]
    · intro digit
      exact ⟨_, digit, UInt8.ofNat_toNat⟩
  · simp only [sign, if_false, false_and, or_false, Option.bind_eq_bind, Option.bind_eq_some_iff,
      Option.pure_def, Option.some.injEq, hexValue?_eq_some_iff]
    constructor
    · rintro ⟨h, high, l, low, valued⟩
      have small : 16 * h + l < 256 := by
        have := high.lt
        have := low.lt
        omega
      exact ⟨h, l, high, low, (ofNat_eq_iff small).mp valued⟩
    · rintro ⟨h, l, high, low, valued⟩
      have small : 16 * h + l < 256 := valued ▸ b.toNat_lt
      exact ⟨h, high, l, low, (ofNat_eq_iff small).mpr valued⟩

variable {raw : List Char} {bytes : Bytes} {segment : Segment}

/-! ### Segments -/

/-- The octets that are read are those that are spelled. -/
theorem unescaped?_eq_some_iff :
    unescaped? raw = some bytes ↔ Spells SignedDigits raw bytes := by
  constructor
  · intro read
    fun_induction unescaped? raw generalizing bytes with
    | case1 =>
        cases read
        exact .done
    | case2 hi lo rest ih =>
        simp only [Option.bind_eq_bind, Option.bind_eq_some_iff, Option.pure_def,
          Option.some.injEq] at read
        obtain ⟨b, value, more, further, rfl⟩ := read
        exact .escaped (escapeValue?_eq_some_iff.mp value) (ih further)
    | case3 => cases read
    | case4 c rest _ other ih =>
        obtain ⟨more, further, rfl⟩ := Option.map_eq_some_iff.mp read
        exact .plain other (ih further)
  · intro spells
    induction spells with
    | done => rfl
    | escaped pair rest ih => simp [unescaped?, escapeValue?_eq_some_iff.mpr pair, ih]
    | plain other rest ih => rw [unescaped?_cons other, ih, Option.map_some]

/-- A written form is read as the segment that it is a form of. -/
theorem ofChars_eq_ok_iff : ofChars raw = .ok segment ↔ Form SignedDigits raw segment := by
  constructor
  · intro read
    rw [ofChars.eq_def] at read
    split at read
    · cases read
    · rename_i rest
      split at read
      · rename_i shaped
        dsimp only at read
        split at read
        · cases read
        · rename_i noDash
          cases read
          have labelled : rest.dropLast ≠ [] := by
            intro none
            have length := congrArg List.length none
            rw [List.length_dropLast, List.length_nil] at length
            omega
          have form : Form SignedDigits _ _ := .parameter labelled noDash
          rwa [List.cons_append, List.dropLast_append_getLast? '-' shaped.2] at form
      · cases read
    · rename_i written name
      split at read
      · rename_i text found
        cases read
        obtain ⟨bytes, unescaped, decoded⟩ := Option.bind_eq_some_iff.mp found
        refine .name written ?_ ?_
        · intro dash
          obtain ⟨rest, rfl⟩ := List.head?_eq_some_iff.mp dash
          exact name rest rfl
        · rw [← Text.utf8_of_ofUtf8? decoded]
          exact unescaped?_eq_some_iff.mp unescaped
      · cases read
  · intro form
    cases form with
    | parameter labelled noDash => simp [ofChars, noDash, labelled]
    | name written noDash spells =>
        obtain ⟨first, more, rfl⟩ := List.exists_cons_of_ne_nil written
        have name : first ≠ '-' := fun same => noDash (congrArg some same)
        rw [ofChars_of_ne name, unescaped?_eq_some_iff.mpr spells, Option.bind_eq_bind,
          Option.bind_some, Text.ofUtf8?_utf8]

/-- Octets are spelled without a sign exactly if no plus sign is straight after a percent sign. By
induction on the spelling: a percent sign stands at the beginning of an escape only. -/
theorem spells_digits_iff :
    Spells Digits raw bytes ↔ Spells SignedDigits raw bytes ∧ ¬ ['%', '+'] <:+: raw := by
  constructor
  · intro spells
    induction spells with
    | done => exact ⟨.done, by simp⟩
    | escaped pair rest ih =>
        refine ⟨.escaped (Or.inl pair) ih.1, ?_⟩
        obtain ⟨h, l, high, low, -⟩ := pair
        have hi := high.not_sign
        have lo := low.not_sign
        simp [List.infix_cons_iff, hi.1.symm, hi.2.symm, lo.2.symm, ih.2]
    | plain other rest ih =>
        refine ⟨.plain other ih.1, ?_⟩
        simp [List.infix_cons_iff, other.symm, ih.2]
  · rintro ⟨spells, unsigned⟩
    induction spells with
    | done => exact .done
    | @escaped hi lo b raw bytes pair rest ih =>
        rcases pair with pair | ⟨rfl, -⟩
        · refine .escaped pair (ih fun signed => unsigned ?_)
          exact signed.trans ⟨['%', hi, lo], [], by simp⟩
        · exact absurd ⟨[], lo :: raw, rfl⟩ unsigned
    | plain other rest ih =>
        exact .plain other (ih fun signed => unsigned (List.infix_cons signed))

/-- The forms of a segment without a signed escape are those of the grammar without signs. -/
theorem form_digits_iff :
    Form Digits raw segment ↔ Form SignedDigits raw segment ∧ ¬ HasSignedEscape raw := by
  constructor
  · intro form
    cases form with
    | parameter labelled noDash => exact ⟨.parameter labelled noDash, fun signed => signed.1 rfl⟩
    | name written noDash spells =>
        obtain ⟨spells, unsigned⟩ := spells_digits_iff.mp spells
        exact ⟨.name written noDash spells, fun signed => unsigned signed.2⟩
  · rintro ⟨form, unsigned⟩
    cases form with
    | parameter labelled noDash => exact .parameter labelled noDash
    | name written noDash spells =>
        refine .name written noDash (spells_digits_iff.mpr ⟨spells, ?_⟩)
        exact fun signed => unsigned ⟨noDash, signed⟩

end Segment

namespace Path

open Segment (Digits SignedDigits HasSignedEscape)

variable {path : Path} {segments : List Segment} {text : List Char}

/-! ### Paths -/

/-- The pieces of a text make it up again, with slashes between them. -/
theorem pieces_joined (raw : List Char) : ∃ first others, pieces raw = first :: others ∧
    raw = first ++ others.flatMap fun piece => '/' :: piece := by
  fun_induction pieces raw with
  | case1 => exact ⟨[], [], rfl, rfl⟩
  | case2 rest ih =>
      obtain ⟨first, others, found, joined⟩ := ih
      refine ⟨[], pieces rest, rfl, ?_⟩
      rw [found, List.nil_append, List.flatMap_cons, List.cons_append, ← joined]
  | case3 c rest _ piece more found ih =>
      obtain ⟨first, others, same, joined⟩ := ih
      cases found.symm.trans same
      exact ⟨c :: piece, more, rfl, by rw [List.cons_append, ← joined]⟩
  | case4 c rest _ none ih =>
      obtain ⟨first, others, same, -⟩ := ih
      cases none.symm.trans same

theorem segmentsOfPieces_eq_ok_iff {written : List (List Char)} :
    segmentsOfPieces written = .ok segments ↔
      List.Forall₂ (Segment.Form SignedDigits) written segments := by
  induction written generalizing segments with
  | nil =>
      rw [List.forall₂_nil_left_iff, segmentsOfPieces, Except.ok.injEq]
      exact eq_comm
  | cons raw rest ih =>
      simp only [segmentsOfPieces, bind_eq_ok_iff, pure_eq_ok, Except.ok.injEq,
        Segment.ofChars_eq_ok_iff, ih, List.forall₂_cons_left_iff]
      constructor
      · rintro ⟨segment, form, more, forms, rfl⟩
        exact ⟨segment, more, form, forms, rfl⟩
      · rintro ⟨segment, more, form, forms, rfl⟩
        exact ⟨segment, form, more, forms, rfl⟩

theorem forall_ne_nil_of_forms {escape : Segment.Escape} {written : List (List Char)}
    (forms : List.Forall₂ (Segment.Form escape) written segments) : ∀ raw ∈ written, raw ≠ [] :=
  ((List.forall₂_and_left _ _).mp (forms.imp fun _ _ form => ⟨form.ne_nil, form⟩)).1

/-- A text is read as the path that it is a form of. -/
theorem segmentsOfChars_eq_ok_iff :
    segmentsOfChars text = .ok segments ↔ Form SignedDigits text ⟨segments⟩ := by
  constructor
  · intro read
    unfold segmentsOfChars at read
    split at read
    · rename_i body
      split at read
      · rename_i none
        cases read
        rw [List.isEmpty_iff.mp none]
        exact .root
      · -- A slash at the end is closing, and what is before it has the pieces.
        obtain ⟨trimmed, closing, same, closed, split⟩ : ∃ trimmed closing,
            (if body.getLast? = some '/' then body.dropLast else body) = trimmed ∧
              (closing = [] ∨ closing = ['/']) ∧ body = trimmed ++ closing := by
          by_cases last : body.getLast? = some '/'
          · refine ⟨body.dropLast, ['/'], if_pos last, Or.inr rfl, ?_⟩
            exact (List.dropLast_append_getLast? '/' last).symm
          · exact ⟨body, [], if_neg last, Or.inl rfl, (List.append_nil body).symm⟩
        rw [same, segmentsOfPieces_eq_ok_iff] at read
        have apart := slash_not_mem_pieces trimmed
        obtain ⟨first, others, found, joined⟩ := pieces_joined trimmed
        rw [found] at read apart
        have form := Form.segments (List.cons_ne_nil first others) apart read closed
        rwa [List.flatMap_cons, List.cons_append, ← joined, List.cons_append, ← split] at form
    · cases read
  · intro form
    cases form with
    | root => rfl
    | @segments written _ closing below apart forms closed =>
        obtain ⟨first, others, rfl⟩ := List.exists_cons_of_ne_nil below
        have filled := forall_ne_nil_of_forms forms
        have more := List.append_ne_nil_of_left_ne_nil (filled first List.mem_cons_self)
          (others.flatMap fun raw => '/' :: raw)
        have read := segmentsOfPieces_eq_ok_iff.mpr forms
        rw [← pieces_join apart] at read
        rw [List.flatMap_cons, List.cons_append, List.cons_append, segmentsOfChars, if_neg]
        · rcases closed with rfl | rfl
          · rwa [List.append_nil, if_neg (getLast?_join apart filled)]
          · rwa [List.getLast?_concat, if_pos rfl, List.dropLast_concat]
        · exact List.isEmpty_eq_false_iff.mpr (List.append_ne_nil_of_left_ne_nil more closing) ▸
            Bool.false_ne_true

/-! ### Forms without signed escapes -/

/-- The pieces of a written form are those of its segments, and empty ones. -/
theorem mem_pieces_form {written : List (List Char)} {closing raw : List Char}
    (apart : ∀ raw ∈ written, '/' ∉ raw) (closed : closing = [] ∨ closing = ['/'])
    (nonempty : raw ≠ []) :
    raw ∈ pieces ((written.flatMap fun raw => '/' :: raw) ++ closing) ↔ raw ∈ written := by
  -- A closing slash makes one more piece, an empty one.
  obtain ⟨extra, bare, joined⟩ : ∃ extra : List (List Char), (∀ piece ∈ extra, piece = []) ∧
      (written.flatMap fun raw => '/' :: raw) ++ closing =
        [] ++ (written ++ extra).flatMap fun raw => '/' :: raw := by
    rcases closed with rfl | rfl
    · exact ⟨[], by simp, by simp⟩
    · exact ⟨[[]], by simp, by simp⟩
  have apart : ∀ piece ∈ [] :: (written ++ extra), '/' ∉ piece := by
    intro piece member
    rcases List.mem_cons.mp member with rfl | member
    · exact List.not_mem_nil
    · rcases List.mem_append.mp member with own | more
      · exact apart piece own
      · exact bare piece more ▸ List.not_mem_nil
  rw [joined, pieces_join apart, List.mem_cons, List.mem_append]
  constructor
  · rintro (none | own | more)
    · exact absurd none nonempty
    · exact own
    · exact absurd (bare raw more) nonempty
  · exact fun own => Or.inr (Or.inl own)

/-- The forms of a path in which no name has a signed escape are those of the grammar without
signs. -/
theorem form_digits_iff : Form Digits text path ↔
    Form SignedDigits text path ∧ ∀ raw ∈ pieces text, ¬ HasSignedEscape raw := by
  have strict : Segment.Form Digits =
      fun raw segment => ¬ HasSignedEscape raw ∧ Segment.Form SignedDigits raw segment := by
    funext raw segment
    exact propext (Segment.form_digits_iff.trans and_comm)
  constructor
  · intro form
    cases form with
    | root => exact ⟨.root, by simp [pieces, HasSignedEscape]⟩
    | segments below apart forms closed =>
        rw [strict, List.forall₂_and_left] at forms
        refine ⟨.segments below apart forms.2 closed, fun raw member signed => ?_⟩
        have nonempty : raw ≠ [] := by
          rintro rfl
          exact absurd signed.2 (by simp)
        exact forms.1 raw ((mem_pieces_form apart closed nonempty).mp member) signed
  · rintro ⟨form, unsigned⟩
    cases form with
    | root => exact .root
    | segments below apart forms closed =>
        refine .segments below apart ?_ closed
        rw [strict, List.forall₂_and_left]
        refine ⟨fun raw member => ?_, forms⟩
        have nonempty := forall_ne_nil_of_forms forms raw member
        exact unsigned raw ((mem_pieces_form apart closed nonempty).mpr member)

/-- A text is read as a path exactly when it is a form of that path, with signs allowed in escapes.
It is a form without signs exactly when it is read and none of its names has a signed escape. Every
text that is not read is refused for its syntax. -/
theorem parse_iff_form (text : String) :
    (∀ path, parse text = .ok path ↔ Form SignedDigits text.toList path) ∧
      (∀ path, Form Digits text.toList path ↔
        parse text = .ok path ∧ ∀ raw ∈ pieces text.toList, ¬ HasSignedEscape raw) ∧
      ((∃ path, parse text = .ok path) ∨
        ∃ fault, parse text = .error (.invalidSyntax text fault)) := by
  have reads (path : Path) : parse text = .ok path ↔ Form SignedDigits text.toList path := by
    obtain ⟨segments⟩ := path
    rw [← segmentsOfChars_eq_ok_iff, parse]
    cases segmentsOfChars text.toList <;> simp
  refine ⟨reads, fun path => ?_, ?_⟩
  · rw [reads]
    exact form_digits_iff
  · unfold parse
    cases segmentsOfChars text.toList with
    | ok segments => exact Or.inl ⟨_, rfl⟩
    | error fault => exact Or.inr ⟨fault, rfl⟩

end Path

/-! ### In the sample -/

namespace Sample

/-- In a label a percent sign and a plus sign stand for themselves; names need escapes for both. -/
theorem plainSigns_parse :
    Path.parse "/-%+5-/%2B%25é/" = .ok ⟨[.parameter "%+5", .name "+%é"]⟩ ∧
      Path.Form Segment.Digits "/-%+5-/%2B%25é/".toList ⟨[.parameter "%+5", .name "+%é"]⟩ := by
  have read : Path.parse "/-%+5-/%2B%25é/" = .ok ⟨[.parameter "%+5", .name "+%é"]⟩ :=
    Path.parse_eq_ok_iff.mpr (by decide +kernel)
  have unsigned : ∀ raw ∈ Path.pieces "/-%+5-/%2B%25é/".toList, ¬ Segment.HasSignedEscape raw := by
    decide +kernel
  exact ⟨read, ((Path.parse_iff_form _).2.1 _).mpr ⟨read, unsigned⟩⟩

/-- A plus sign and a digit are read as an escape, although they are not two digits. -/
theorem signed_escape_read :
    Path.parse "/%+5" = .ok ⟨[.name "\x05"]⟩ ∧
      ¬ ∃ path, Path.Form Segment.Digits "/%+5".toList path := by
  refine ⟨Path.parse_eq_ok_iff.mpr (by decide +kernel), ?_⟩
  rintro ⟨path, form⟩
  have signed : Segment.HasSignedEscape "%+5".toList :=
    ⟨by decide +kernel, [], ['5'], by decide +kernel⟩
  exact (Path.form_digits_iff.mp form).2 _ (by decide +kernel) signed

end Sample

end StateTree
