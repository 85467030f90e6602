/-
Module: StateTree.Format.Toml.Parse
Purpose: Reading TOML documents: keys, strings of four sorts, arrays, tables as values, and the
  lines of a document.
-/
import StateTree.Format.Toml.Scalar

namespace StateTree.Toml

/-- Takes a value from the front of characters, if they begin with one. -/
abbrev Reader (α : Type) := StateT (List Char) Option α

def refuse {α : Type} : Reader α := fun _ => none

/-- The value that an option holds. -/
def accept {α : Type} : Option α → Reader α
  | some value => pure value
  | none => refuse

/-- The next character, which stays. -/
def peek : Reader (Option Char) := fun cs => some (cs.head?, cs)

/-- A certain character. -/
def expect (c : Char) : Reader Unit
  | [] => none
  | d :: rest => if c = d then some ((), rest) else none

/-- Characters of a class. -/
def run (isFit : Char → Bool) : Reader (List Char) := fun cs =>
  some (cs.takeWhile isFit, cs.dropWhile isFit)

/-! ## Blanks, comments and line ends -/

/-- Blanks within a line. -/
def skipBlanks : Reader Unit := do
  let _ ← run fun c => c == ' ' || c == '\t'

/-- Whether a character may stand in a comment or a literal string. -/
def isPlain (c : Char) : Bool := c == '\t' || (' ' ≤ c && c != '\x7f')

/-- A comment, if there is one. -/
def skipComment : Reader Unit
  | '#' :: rest => some ((), rest.dropWhile isPlain)
  | cs => some ((), cs)

/-- The characters after a line end, if there is one at the front. -/
def afterLineEnd? : List Char → Option (List Char)
  | '\n' :: rest => some rest
  | '\r' :: '\n' :: rest => some rest
  | _ => none

/-- The end of a line or of the document, after blanks and a comment. -/
def endLine : Reader Unit := do
  skipBlanks
  skipComment
  fun cs => if cs.isEmpty then some ((), []) else (afterLineEnd? cs).map fun rest => ((), rest)

/-- Blanks, comments and line ends between the items of an array. -/
def skipLines : Nat → List Char → List Char
  | 0, cs => cs
  | fuel + 1, cs =>
      match cs with
      | ' ' :: rest => skipLines fuel rest
      | '\t' :: rest => skipLines fuel rest
      | '#' :: rest =>
          match afterLineEnd? (rest.dropWhile isPlain) with
          | some rest => skipLines fuel rest
          | none => cs
      | _ =>
          match afterLineEnd? cs with
          | some rest => skipLines fuel rest
          | none => cs

/-- Blanks, comments and line ends. -/
def skipSpace : Reader Unit := fun cs => some ((), skipLines cs.length cs)

/-! ## Strings -/

/-- The character of so many hexadecimal digits. -/
def codePoint? (width : Nat) (cs : List Char) : Option (Char × List Char) :=
  let digits := cs.take width
  let code := natOfDigits 16 digits
  if digits.length = width ∧ digits.all (isDigitOf 16) ∧ code.isValidChar then
    some (Char.ofNat code, cs.drop width)
  else none

/-- The character that an escape stands for, after its backslash. -/
def escape? : List Char → Option (Char × List Char)
  | 'b' :: rest => some ('\x08', rest)
  | 't' :: rest => some ('\t', rest)
  | 'n' :: rest => some ('\n', rest)
  | 'f' :: rest => some ('\x0c', rest)
  | 'r' :: rest => some ('\r', rest)
  | '"' :: rest => some ('"', rest)
  | '\\' :: rest => some ('\\', rest)
  | 'u' :: rest => codePoint? 4 rest
  | 'U' :: rest => codePoint? 8 rest
  | _ => none

/-- The rest of a basic string within a line, after its opening quote. -/
def basicBody : Nat → List Char → Option (List Char × List Char)
  | 0, _ => none
  | fuel + 1, cs =>
      match cs with
      | '"' :: rest => some ([], rest)
      | '\\' :: rest => do
          let (c, rest) ← escape? rest
          let (body, rest) ← basicBody fuel rest
          pure (c :: body, rest)
      | c :: rest =>
          if isPlain c then do
            let (body, rest) ← basicBody fuel rest
            pure (c :: body, rest)
          else none
      | [] => none

/-- The rest of a literal string within a line, after its opening quote. -/
def literalBody : Reader (List Char) := do
  let body ← run fun c => isPlain c && c != '\''
  expect '\''
  pure body

/-- The quotes at the end of a string of several lines; up to two of them belong to it. -/
def closing? (quote : Char) (cs : List Char) : Option (List Char × List Char) :=
  let quotes := cs.takeWhile (· == quote)
  if quotes.length < 3 then none
  else
    let kept := min (quotes.length - 3) 2
    some (List.replicate kept quote, cs.drop (kept + 3))

/-- The characters after the blanks and line ends at the front. -/
def dropSpace : List Char → List Char
  | ' ' :: rest => dropSpace rest
  | '\t' :: rest => dropSpace rest
  | '\n' :: rest => dropSpace rest
  | '\r' :: '\n' :: rest => dropSpace rest
  | cs => cs

/-- The characters after the blanks and line ends that a backslash at the end of a line joins. -/
def afterJoin? (cs : List Char) : Option (List Char) :=
  (afterLineEnd? (cs.dropWhile fun c => c == ' ' || c == '\t')).map dropSpace

/-- The rest of a string of several lines. In a basic one a backslash begins an escape or joins
lines. -/
def linesBody (quote : Char) : Nat → List Char → Option (List Char × List Char)
  | 0, _ => none
  | fuel + 1, cs =>
      match closing? quote cs with
      | some closed => some closed
      | none =>
          match cs with
          | [] => none
          | c :: rest =>
              if c = '\\' ∧ quote = '"' then
                match afterJoin? rest with
                | some rest => linesBody quote fuel rest
                | none => do
                    let (c, rest) ← escape? rest
                    let (body, rest) ← linesBody quote fuel rest
                    pure (c :: body, rest)
              else
                match afterLineEnd? cs with
                | some rest => do
                    let (body, rest) ← linesBody quote fuel rest
                    pure ('\n' :: body, rest)
                | none =>
                    if isPlain c then do
                      let (body, rest) ← linesBody quote fuel rest
                      pure (c :: body, rest)
                    else none

/-- A string of several lines, after its opening quotes; a line end right after them is left out. -/
def linesString (quote : Char) : Reader String := fun cs => do
  let cs := (afterLineEnd? cs).getD cs
  let (body, rest) ← linesBody quote (cs.length + 1) cs
  pure (String.ofList body, rest)

/-- A string within a line. -/
def lineString : Reader String
  | '"' :: rest => do
      let (body, rest) ← basicBody (rest.length + 1) rest
      pure (String.ofList body, rest)
  | '\'' :: rest => do
      let (body, rest) ← literalBody rest
      pure (String.ofList body, rest)
  | _ => none

/-- A string of any sort. -/
def anyString : Reader String
  | '"' :: '"' :: '"' :: rest => linesString '"' rest
  | '\'' :: '\'' :: '\'' :: rest => linesString '\'' rest
  | cs => lineString cs

/-! ## Keys -/

/-- Whether a character may stand in a key without quotes. -/
def isBare (c : Char) : Bool :=
  isDigit c || ('a' ≤ c && c ≤ 'z') || ('A' ≤ c && c ≤ 'Z') || c == '_' || c == '-'

/-- One part of a key. -/
def simpleKey : Reader String := do
  match ← peek with
  | some '"' => lineString
  | some '\'' => lineString
  | _ => do
      let name ← run isBare
      if name.isEmpty then refuse else pure (String.ofList name)

/-- How many parts a key may have, and how deep arrays and tables may be nested in a value. -/
def nestingLimit : Nat := 79

/-- A key of at most so many parts, with dots between them. -/
def keyParts : Nat → Reader (List String)
  | 0 => refuse
  | count + 1 => do
      skipBlanks
      let part ← simpleKey
      skipBlanks
      match ← peek with
      | some '.' => do
          expect '.'
          let parts ← keyParts count
          pure (part :: parts)
      | _ => pure [part]

/-- A key as the parts in front and the last one. -/
def key : Reader (List String × String) := do
  let parts ← keyParts nestingLimit
  let last ← accept parts.getLast?
  pure (parts.dropLast, last)

/-! ## Values -/

/-- Whether a character may stand in a value without quotes. -/
def isScalar (c : Char) : Bool := isBare c || c == '+' || c == '.' || c == ':'

/-- A value without quotes. A date may be parted from its time by a blank. -/
def scalar : Reader Toml := do
  let first ← run isScalar
  let cs ← get
  match cs with
  | ' ' :: c :: rest =>
      if isDate first && isDigit c then do
        set (c :: rest)
        let time ← run isScalar
        accept (scalar? (first ++ ' ' :: time))
      else accept (scalar? first)
  | _ => accept (scalar? first)

mutual

/-- A value. The first argument bounds the number of calls within one another, the second how many
brackets may still be opened within one another. -/
def value : Nat → Nat → Reader Toml
  | 0, _ => refuse
  | fuel + 1, depth => do
      match ← peek, depth with
      | some '"', _ => do
          let text ← anyString
          pure (.string text)
      | some '\'', _ => do
          let text ← anyString
          pure (.string text)
      | some '[', 0 => refuse
      | some '[', depth + 1 => do
          expect '['
          let items ← items fuel depth
          pure (.array items)
      | some '\x7b', 0 => refuse
      | some '\x7b', depth + 1 => do
          expect '\x7b'
          skipBlanks
          match ← peek with
          | some '\x7d' => do
              expect '\x7d'
              pure (.table .complete [])
          | _ => do
              let entries ← members fuel depth []
              pure (.table .complete entries)
      | _, _ => scalar

/-- The items of an array up to its end; a comma may follow the last one. -/
def items : Nat → Nat → Reader (List Toml)
  | 0, _ => refuse
  | fuel + 1, depth => do
      skipSpace
      match ← peek with
      | some ']' => do
          expect ']'
          pure []
      | _ => do
          let item ← value fuel depth
          skipSpace
          match ← peek with
          | some ',' => do
              expect ','
              let rest ← items fuel depth
              pure (item :: rest)
          | _ => do
              expect ']'
              pure [item]

/-- The entries of a table that is a value, up to its end. -/
def members : Nat → Nat → Entries → Reader Entries
  | 0, _, _ => refuse
  | fuel + 1, depth, entries => do
      let (keys, last) ← key
      expect '='
      skipBlanks
      let value ← value fuel depth
      let entries ← accept (assign keys last value .header entries)
      skipBlanks
      match ← peek with
      | some ',' => do
          expect ','
          members fuel depth entries
      | _ => do
          expect '\x7d'
          pure entries

end

/-! ## Documents -/

/-- A document so far: all its tables, and the keys of the header that was met last. -/
structure Document where
  entries : Entries
  header : List String

/-- The keys in double or single brackets, after the first bracket. -/
def headerLine (document : Document) : Reader Document := do
  match ← peek with
  | some '[' => do
      expect '['
      let (keys, last) ← key
      expect ']'
      expect ']'
      let entries ← accept (openNext keys last document.entries)
      pure ⟨entries, keys ++ [last]⟩
  | _ => do
      let (keys, last) ← key
      expect ']'
      let entries ← accept (openTable keys last document.entries)
      pure ⟨entries, keys ++ [last]⟩

/-- A key with its value. -/
def entryLine (document : Document) : Reader Document := fun cs => do
  let ((keys, last), cs) ← key cs
  let (_, cs) ← expect '=' cs
  let (_, cs) ← skipBlanks cs
  let (value, cs) ← value (2 * cs.length + 2) nestingLimit cs
  let entries ← changeOpen (assign keys last value) document.header .header document.entries
  pure (⟨entries, document.header⟩, cs)

/-- The lines of a document. The first argument bounds their number. -/
def lines : Nat → Document → List Char → Option Document
  | 0, _, _ => none
  | fuel + 1, document, cs => do
      let (_, cs) ← skipBlanks cs
      match cs with
      | [] => pure document
      | '[' :: rest => do
          let (document, cs) ← headerLine document rest
          let (_, cs) ← endLine cs
          lines fuel document cs
      | c :: _ =>
          if c = '#' ∨ c = '\n' ∨ c = '\r' then do
            let (_, cs) ← endLine cs
            lines fuel document cs
          else do
            let (document, cs) ← entryLine document cs
            let (_, cs) ← endLine cs
            lines fuel document cs

/-- The entries of a document. A byte order mark in front is passed over. -/
def parse? (text : String) : Option Entries :=
  let cs :=
    match text.toList with
    | '\ufeff' :: rest => rest
    | cs => cs
  (lines (cs.length + 1) ⟨[], []⟩ cs).map Document.entries

end StateTree.Toml
