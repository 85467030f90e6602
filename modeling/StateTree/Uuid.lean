/-
Module: StateTree.Uuid
Purpose: Universally unique identifiers of 128 bits: their written forms, their octets, and fresh
  ones that sort by the time of their making.
-/
import StateTree.Codec.Basic

namespace StateTree

/-- A number of 128 bits that names one thing for good. -/
structure Uuid where
  value : BitVec 128
deriving DecidableEq

namespace Uuid

/-- The identifier of a number, of which the low 128 bits count. -/
def ofNat (n : Nat) : Uuid := ⟨BitVec.ofNat 128 n⟩

/-- The 32 digits, with nothing between them. -/
def simple (uuid : Uuid) : String := Text.paddedHexOfNat 32 uuid.value.toNat

/-- The digits in five groups with hyphens between them. -/
def render (uuid : Uuid) : String :=
  let digits := uuid.simple.toList
  let group (start width : Nat) : List Char := (digits.drop start).take width
  String.ofList
    (group 0 8 ++ '-' :: group 8 4 ++ '-' :: group 12 4 ++ '-' :: group 16 4 ++ '-' :: group 20 12)

/-- The identifier of 32 digits. -/
def ofDigits? (digits : List Char) : Option Uuid := do
  let values ← digits.mapM Text.hexValue?
  if values.length = 32 then pure (ofNat (values.foldl (fun n digit => 16 * n + digit) 0)) else none

/-- The digits of five groups with hyphens between them. -/
def ungrouped? (written : List Char) : Option (List Char) :=
  let hyphens := [8, 13, 18, 23].filterMap fun index => written[index]?
  if written.length = 36 ∧ hyphens = ['-', '-', '-', '-'] then
    some (written.filter (· != '-'))
  else none

/-- What stands in front of an identifier that is written as a resource name, in letters of either
case. -/
def resourceName : List Char := "urn:uuid:".toList

/-- The identifier of a text: the digits alone, or in groups, which may stand between braces or
after the mark of a resource name. -/
def parse? (text : String) : Option Uuid :=
  let written := text.toList
  if written.length = 32 then ofDigits? written
  else
    let grouped :=
      if written.length = 38 ∧ written.head? = some '\x7b' ∧ written.getLast? = some '\x7d' then
        (written.drop 1).dropLast
      else if written.length = 45 ∧ (written.take 9).map Char.toLower = resourceName then
        written.drop 9
      else written
    ungrouped? grouped >>= ofDigits?

/-- The sixteen octets, the highest first. -/
def octets (uuid : Uuid) : Bytes := (Binary.littleEndian 16 uuid.value.toNat).reverse

/-- The identifier of sixteen octets. -/
def ofOctets? (bytes : Bytes) : Option Uuid :=
  if bytes.length = 16 then some (ofNat (Binary.ofLittleEndian bytes.reverse)) else none

/-- The identifier of version 7 for a time in milliseconds and the number of those made before. -/
def fresh (time count : Nat) : Uuid :=
  ⟨BitVec.ofNat 48 time ++ 7#4 ++ BitVec.ofNat 12 (count >>> 62) ++ 2#2 ++ BitVec.ofNat 62 count⟩

/-- In JSON an identifier is a text, in the binary layout its octets after their number. -/
instance : Codec Uuid where
  toJson uuid := .ofText uuid.render
  ofJson? _ json := json.text? >>= parse?
  put uuid := Binary.putBytes uuid.octets
  get := do
    let bytes ← Binary.getBytes
    Binary.accept (ofOctets? bytes)

end Uuid

/-- Filled digits are at least as many as asked for. -/
theorem Text.length_paddedHexOfNat (width n : Nat) :
    width ≤ (Text.paddedHexOfNat width n).length := by
  simp [Text.paddedHexOfNat]
  omega

theorem Uuid.simple_ne_empty (uuid : Uuid) : uuid.simple ≠ "" := by
  intro h
  have bound := Text.length_paddedHexOfNat 32 uuid.value.toNat
  rw [show Text.paddedHexOfNat 32 uuid.value.toNat = "" from h] at bound
  simp at bound

/-- An identifier that has never been handed out before, with a text of the caller's in front. -/
def Identifier.unique (start : String) (uuid : Uuid) : Identifier :=
  ⟨start ++ uuid.simple, fun h => uuid.simple_ne_empty (String.append_eq_empty_iff.mp h).2⟩

end StateTree
