/-
Module: StateTree.Text.Bytes
Purpose: Text as the list of its UTF-8 octets, and back. Reading is strict: octets that are not
  well-formed UTF-8 are no text.
-/

namespace StateTree

/-- A finite sequence of octets. -/
abbrev Bytes := List UInt8

namespace Text

/-- The UTF-8 octets of a text. -/
def utf8 (text : String) : Bytes :=
  text.toByteArray.data.toList

/-- The text whose UTF-8 octets these are. -/
def ofUtf8? (bytes : Bytes) : Option String :=
  String.fromUTF8? ⟨bytes.toArray⟩

/-- Reading the octets of a text gives the text back. -/
theorem ofUtf8?_utf8 (text : String) : ofUtf8? (utf8 text) = some text := by
  obtain ⟨bytes, valid⟩ := text
  simp [ofUtf8?, utf8, String.fromUTF8?, valid, String.fromUTF8]

/-- Octets that read as a text are the octets of that text. -/
theorem utf8_of_ofUtf8? {bytes : Bytes} {text : String} (h : ofUtf8? bytes = some text) :
    bytes = utf8 text := by
  unfold ofUtf8? String.fromUTF8? at h
  split at h
  · cases h
    simp [utf8, String.fromUTF8]
  · cases h

end Text

end StateTree
