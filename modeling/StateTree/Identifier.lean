/-
Module: StateTree.Identifier
Purpose: The opaque key that names an entity within its container. Its one rule is that it is not
  empty; every other text, separators included, is an identifier.
-/

namespace StateTree

/-- A non-empty text that names an entity. -/
structure Identifier where
  text : String
  nonempty : text ≠ ""
deriving DecidableEq

namespace Identifier

/-- The identifier with this text, unless the text is empty. -/
def ofString? (text : String) : Option Identifier :=
  if h : text = "" then none else some ⟨text, h⟩

/-- Identifiers are ordered by their text. -/
instance : Ord Identifier where
  compare a b := compare a.text b.text

instance : ToString Identifier where
  toString id := id.text

theorem ext_text {a b : Identifier} (h : a.text = b.text) : a = b := by
  cases a
  cases b
  cases h
  rfl

/-- The text of an identifier is read back as that identifier. -/
theorem ofString?_text (id : Identifier) : ofString? id.text = some id := by
  simp [ofString?, id.nonempty]

/-- Only its own text is read as an identifier. -/
theorem ofString?_eq_some_iff {text : String} {id : Identifier} :
    ofString? text = some id ↔ text = id.text := by
  constructor
  · intro h
    unfold ofString? at h
    split at h
    · cases h
    · cases h
      rfl
  · rintro rfl
    exact ofString?_text id

/-- Exactly the empty text is no identifier. -/
theorem ofString?_eq_none_iff {text : String} : ofString? text = none ↔ text = "" := by
  unfold ofString?
  split <;> simp_all

end Identifier

end StateTree
