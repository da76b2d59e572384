import TreePath.Text.Digits

/-! # Texts in TOML

A text stands between double or single quotes, one of them on each side or three. Between double
quotes a backslash starts an escape, between single quotes nothing does; between three a text may
run over lines. The line feed is the only break there is here, see `unifyBreaks`.

* `readBody`: a text up to its closing quotes. One or two quotes may stand within three, also right
  in front of the closing ones, and a backslash at the end of a line takes away the blanks and
  breaks up to the next character.
* `readLine` and `readText`: a text on one line, and any text. -/

namespace TreePath.Toml

/-- The characters of a document with one line feed for each break of a line. -/
def unifyBreaks : List Char → List Char
  | [] => []
  | '\r' :: '\n' :: cs => '\n' :: unifyBreaks cs
  | c :: cs => c :: unifyBreaks cs

/-- A space or a tab. -/
def isBlank (c : Char) : Bool := c == ' ' || c == '\t'

/-- Characters without blanks in front. -/
def skipBlanks (cs : List Char) : List Char := cs.dropWhile isBlank

/-- A character of a text or of a comment: every one but the controls, of which the tab is allowed.
-/
def isPlain (c : Char) : Bool := c == '\t' || (' ' ≤ c && c ≠ '\x7f')

/-! ### Escapes -/

/-- The character of one letter behind a backslash. -/
def escaped? (c : Char) : Option Char :=
  match c with
  | 'b' => some '\x08'
  | 't' => some '\t'
  | 'n' => some '\n'
  | 'f' => some '\x0c'
  | 'r' => some '\r'
  | '"' => some '"'
  | '\\' => some '\\'
  | _ => none

/-- The character of hexadecimal digits behind a backslash. -/
def coded? (digits : List Char) : Option Char :=
  (Text.readDigits 16 digits).bind Text.charOfCode?

/-- Whether only blanks stand in front of the next break. -/
def endsLine (cs : List Char) : Bool := (skipBlanks cs).head? == some '\n'

/-! ### Bodies -/

/-- A character in front of a text that is read. -/
def consRead (c : Option Char) (read : Option (List Char × List Char)) :
    Option (List Char × List Char) :=
  match c, read with
  | some c, some (text, rest) => some (c :: text, rest)
  | _, _ => none

/-- A text up to its closing quotes, one or three, and what follows them. While it skips, blanks and
breaks do not count. -/
def readBody (quote : Char) (isLong isSkipping : Bool) :
    List Char → Option (List Char × List Char)
  | [] => none
  | c :: cs =>
    if isSkipping && (isBlank c || c == '\n') then readBody quote isLong true cs
    else if c = quote then
      let quotes := 1 + (cs.takeWhile (· == quote)).length
      if !isLong then some ([], cs)
      else if quotes < 3 then consRead (some c) (readBody quote isLong false cs)
      else if quotes < 6 then some (List.replicate (quotes - 3) c, cs.drop (quotes - 1))
      else none
    else if c = '\\' && quote = '"' then
      match cs with
      | [] => none
      | 'u' :: x₁ :: x₂ :: x₃ :: x₄ :: cs =>
        consRead (coded? [x₁, x₂, x₃, x₄]) (readBody quote isLong false cs)
      | 'U' :: x₁ :: x₂ :: x₃ :: x₄ :: x₅ :: x₆ :: x₇ :: x₈ :: cs =>
        consRead (coded? [x₁, x₂, x₃, x₄, x₅, x₆, x₇, x₈]) (readBody quote isLong false cs)
      | x :: cs =>
        if isLong && endsLine (x :: cs) then readBody quote isLong true cs
        else consRead (escaped? x) (readBody quote isLong false cs)
    else if isPlain c || (isLong && c == '\n') then
      consRead (some c) (readBody quote isLong false cs)
    else none

/-- A text between three quotes, the break right behind which does not count. -/
def readLong (quote : Char) (cs : List Char) : Option (String × List Char) :=
  let cs := if cs.head? == some '\n' then cs.tail else cs
  (readBody quote true false cs).map fun r => (String.ofList r.1, r.2)

/-- A text between two quotes, the first of which is read. -/
def readShort (quote : Char) (cs : List Char) : Option (String × List Char) :=
  (readBody quote false false cs).map fun r => (String.ofList r.1, r.2)

/-- A text on one line. -/
def readLine : List Char → Option (String × List Char)
  | '"' :: cs => readShort '"' cs
  | '\x27' :: cs => readShort '\x27' cs
  | _ => none

/-- A text. -/
def readText : List Char → Option (String × List Char)
  | '"' :: '"' :: '"' :: cs => readLong '"' cs
  | '\x27' :: '\x27' :: '\x27' :: cs => readLong '\x27' cs
  | cs => readLine cs

end TreePath.Toml
