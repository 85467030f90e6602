/-
Module: StateTree.Text.Quoted
Purpose: Text in double quotes, as messages show it. Quotes, backslashes and the usual layout
  characters have two-character escapes, every other blank character is spelt by its code point,
  and all else stands for itself.
-/
import StateTree.Text.Blank
import StateTree.Text.Hex

namespace StateTree.Text

/-- One character as it stands between double quotes. -/
def quotedChar (c : Char) : String :=
  if c = '"' then "\\\""
  else if c = '\\' then "\\\\"
  else if c = '\n' then "\\n"
  else if c = '\r' then "\\r"
  else if c = '\t' then "\\t"
  else if c = '\x00' then "\\0"
  else if isBlank c then "\\u\x7b" ++ hexOfNat c.toNat ++ "\x7d"
  else String.singleton c

/-- A text in double quotes. -/
def quoted (text : String) : String :=
  "\"" ++ String.join (text.toList.map quotedChar) ++ "\""

end StateTree.Text
