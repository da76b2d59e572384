import TreePath.Toml.Scalar
import TreePath.Toml.Text
import TreePath.Toml.Value

/-! # Reading TOML documents

A document is a list of statements, each on a line of its own but for values that run over lines.
Blank lines and comments stand between them.

* `readValue`: a value: a text, a word, or values in brackets or braces, which nest to a limited
  depth.
* `readStatements`: the statements of a document.
* `Entries.ofStatements?`: the table that statements describe, each in its turn.
* `Entries.ofText?`: the table of a document. -/

namespace TreePath.Toml

/-- The most parts of a key, and the most brackets and braces around a value. -/
def maxDepth : Nat := 79

/-! ### Between the lines -/

/-- What follows blanks, breaks and comments. -/
def skipGaps (inComment : Bool) : List Char → List Char
  | [] => []
  | c :: cs =>
    if c = '\n' then skipGaps false cs
    else if inComment then if isPlain c then skipGaps true cs else c :: cs
    else if isBlank c then skipGaps false cs
    else if c = '#' then skipGaps true cs
    else c :: cs

/-- What follows the end of a line, on which only a comment may stand. -/
def endLine (cs : List Char) : Option (List Char) :=
  let cs := skipBlanks cs
  let cs := if cs.head? == some '#' then cs.dropWhile isPlain else cs
  match cs with
  | [] => some []
  | '\n' :: cs => some cs
  | _ => none

/-! ### Keys -/

/-- A character of a key without quotes. -/
def isKeyChar (c : Char) : Bool := c.isAlphanum || c == '_' || c == '-'

/-- A part of a key. -/
def readPart (cs : List Char) : Option (String × List Char) :=
  let word := cs.takeWhile isKeyChar
  if word.isEmpty then readLine cs else some (String.ofList word, cs.drop word.length)

/-- A key of at most `n` parts with dots between them, and blanks around each. -/
def readKey : Nat → List Char → Option (List String × List Char)
  | 0, _ => none
  | n + 1, cs =>
    match readPart (skipBlanks cs) with
    | none => none
    | some (part, cs) =>
      match skipBlanks cs with
      | '.' :: cs => (readKey n cs).map fun r => (part :: r.1, r.2)
      | cs => some ([part], cs)

/-! ### Values -/

/-- Reads a value off the front of characters. -/
abbrev ValueReader := List Char → Option (Value × List Char)

/-- A word, or a date and a time with a space between them. -/
def readScalar (cs : List Char) : Option (Value × List Char) :=
  let word := cs.takeWhile isWordChar
  let rest := cs.drop word.length
  let time := (rest.drop 1).takeWhile isWordChar
  if rest.head? == some ' ' && isDate word && isOffsetTime time then
    some (.dateTime (String.ofList (word ++ ' ' :: time)), rest.drop (1 + time.length))
  else (readWord word).map fun v => (v, rest)

/-- A text or a word. -/
def readPlain (cs : List Char) : Option (Value × List Char) :=
  match readText cs with
  | some (text, rest) => some (.string text, rest)
  | none => readScalar cs

/-- A key and its value. -/
def readPair (value : ValueReader) (cs : List Char) :
    Option ((List String × Value) × List Char) :=
  match readKey maxDepth cs with
  | some (key, '=' :: cs) => (value (skipBlanks cs)).map fun r => ((key, r.1), r.2)
  | _ => none

/-- The values up to a closing bracket, with a comma between each two and perhaps one at the end. -/
def readItems (value : ValueReader) : Nat → List Char → Option (List Value × List Char)
  | 0, _ => none
  | fuel + 1, cs =>
    match skipGaps false cs with
    | ']' :: cs => some ([], cs)
    | cs =>
      match value cs with
      | none => none
      | some (v, cs) =>
        match skipGaps false cs with
        | ',' :: cs => (readItems value fuel cs).map fun r => (v :: r.1, r.2)
        | ']' :: cs => some ([v], cs)
        | _ => none

/-- The keys and values up to a closing brace, with a comma between each two. -/
def readPairs (value : ValueReader) :
    Nat → List Char → Option (List (List String × Value) × List Char)
  | 0, _ => none
  | fuel + 1, cs =>
    match readPair value cs with
    | none => none
    | some (pair, cs) =>
      match skipBlanks cs with
      | ',' :: cs => (readPairs value fuel cs).map fun r => (pair :: r.1, r.2)
      | '}' :: cs => some ([pair], cs)
      | _ => none

/-- The table between braces, the first of which is read. -/
def readTable (value : ValueReader) (cs : List Char) : Option (Value × List Char) :=
  match skipBlanks cs with
  | '}' :: cs => some (.table .inline [], cs)
  | cs =>
    (readPairs value cs.length cs).bind fun r =>
      (Entries.ofPairs r.1).map fun es => (.table .inline es, r.2)

/-- A value with at most `depth` brackets and braces around any value in it. -/
def readValue : Nat → ValueReader
  | 0, cs => readPlain cs
  | depth + 1, cs =>
    match cs with
    | '[' :: cs => (readItems (readValue depth) cs.length cs).map fun r => (.array r.1, r.2)
    | '{' :: cs => readTable (readValue depth) cs
    | cs => readPlain cs

/-! ### Statements -/

/-- A statement of a document. -/
inductive Statement where
  /-- The header of a table. -/
  | table (path : List String)
  /-- The header of an element of an array of tables. -/
  | element (path : List String)
  /-- A key and its value, in the table of the last header. -/
  | entry (key : List String) (value : Value)
  deriving Repr, Inhabited

/-- The header of an element, two brackets of which are read. -/
def readElement (cs : List Char) : Option (Statement × List Char) :=
  match readKey maxDepth cs with
  | some (path, ']' :: ']' :: cs) => some (.element path, cs)
  | _ => none

/-- The header of a table, a bracket of which is read. -/
def readHeader (cs : List Char) : Option (Statement × List Char) :=
  match readKey maxDepth cs with
  | some (path, ']' :: cs) => some (.table path, cs)
  | _ => none

/-- One statement. -/
def readStatement : List Char → Option (Statement × List Char)
  | '[' :: '[' :: cs => readElement cs
  | '[' :: cs => readHeader cs
  | cs => (readPair (readValue maxDepth) cs).map fun r => (.entry r.1.1 r.1.2, r.2)

/-- The statements up to the end, each with the end of its line. -/
def readStatements : Nat → List Char → Option (List Statement)
  | 0, _ => none
  | fuel + 1, cs =>
    match skipGaps false cs with
    | [] => some []
    | cs =>
      match readStatement cs with
      | none => none
      | some (s, cs) => (endLine cs).bind fun cs => (readStatements fuel cs).map (s :: ·)

/-! ### Documents -/

/-- What a statement does to the path of the last header and to the table of the document. -/
def Statement.apply (state : List String × Entries) : Statement → Option (List String × Entries)
  | .table path => (state.2.openTable path).map fun es => (path, es)
  | .element path => (state.2.openElement path).map fun es => (path, es)
  | .entry key v => (state.2.atHeader (Entries.put v key) state.1).map fun es => (state.1, es)

/-- The table that statements describe. -/
def Entries.ofStatements? (statements : List Statement) : Option Entries :=
  (statements.foldlM Statement.apply ([], [])).map (·.2)

/-- The characters of a document behind its byte order mark. -/
def dropMark (cs : List Char) : List Char := if cs.head? == some '\ufeff' then cs.tail else cs

/-- The table of a document. -/
def Entries.ofText? (text : String) : Option Entries :=
  let cs := unifyBreaks (dropMark text.toList)
  (readStatements (cs.length + 1) cs).bind Entries.ofStatements?

end TreePath.Toml
