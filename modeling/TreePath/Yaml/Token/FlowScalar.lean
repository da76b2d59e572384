import TreePath.Text.Digits
import TreePath.Yaml.Chars

/-! # Plain and quoted scalars

A plain scalar goes on until something that ends it, a quoted one to its closing quote. Blanks in
them are kept, unless there is a break among them: then the blanks are dropped and the break is
*folded*. A single line feed becomes a space, further breaks are kept as they are, and a first break
of another kind is kept with them.

* `Gap` is the white space since the last character of text, `Gap.text` what it stands for.
* `readPlain`, `readSingleQuoted`, `readDoubleQuoted`: the scalar at the start of a cursor. -/

namespace TreePath.Yaml

/-! ### Folding -/

/-- White space between characters of text. -/
inductive Gap where
  /-- Blanks on one line. -/
  | blanks (chars : List Char)
  /-- Breaks: the first, unless it was escaped, and those after it. -/
  | breaks (first : Option Char) (more : List Char)

namespace Gap

def empty : Gap := blanks []

def isBroken : Gap → Bool
  | blanks _ => false
  | breaks _ _ => true

/-- The gap with one more blank, which counts only before the first break. -/
def addBlank : Gap → Char → Gap
  | blanks cs, c => blanks (cs ++ [c])
  | breaks first more, _ => breaks first more

/-- The gap with one more break. -/
def addBreak : Gap → Char → Gap
  | blanks _, c => breaks (some c) []
  | breaks first more, c => breaks first (more ++ [c])

/-- What the gap stands for. -/
def text : Gap → List Char
  | blanks cs => cs
  | breaks (some '\n') [] => [' ']
  | breaks (some '\n') more => more
  | breaks first more => first.toList ++ more

end Gap

/-- Text read so far, last character first, followed by a gap. -/
def addGap (text : List Char) (gap : Gap) : List Char := gap.text.reverse ++ text

/-! ### Plain scalars -/

/-- A plain scalar with the cursor behind it and the white space that follows it. -/
structure PlainScalar where
  text : String
  /-- Whether a break follows the scalar. -/
  brokeLine : Bool
  cursor : Cursor

/-- The character that a colon may not be followed by, inside a flow collection. -/
def isFlowIndicator (c : Char) : Bool := c ∈ [',', '?', '[', ']', '{', '}']

/-- The character that ends a plain scalar inside a flow collection. -/
def endsFlowScalar (c : Char) : Bool := c ∈ [',', '[', ']', '{', '}']

/-- Reads on with the text and gap so far. Inside block collections a line indented by less than
`indent` ends the scalar, and in any scalar its lines may not be indented by tabs. -/
def readPlainFrom (inFlow : Bool) (indent : Nat) (m : Mark) (text : List Char) (gap : Gap) :
    List Char → Option PlainScalar
  | [] => some ⟨String.ofList text.reverse, gap.isBroken, ⟨m, []⟩⟩
  | c :: cs =>
    if isBlank c then
      if gap.isBroken && m.column < indent && c == '\t' then none
      else readPlainFrom inFlow indent (m.after c) text (gap.addBlank c) cs
    else if isBreak c then readPlainFrom inFlow indent (m.after c) text (gap.addBreak c) cs
    else
      if gap.text != [] &&
          ((!inFlow && m.column < indent) || isDocumentMarker m (c :: cs) || c == '#') then
        some ⟨String.ofList text.reverse, gap.isBroken, ⟨m, c :: cs⟩⟩
      else if inFlow && c == ':' && cs.head?.any isFlowIndicator then none
      else if (c == ':' && endsWord cs) || (inFlow && endsFlowScalar c) then
        some ⟨String.ofList text.reverse, gap.isBroken, ⟨m, c :: cs⟩⟩
      else readPlainFrom inFlow indent (m.after c) (c :: addGap text gap) .empty cs

/-- Reads the plain scalar at the cursor. -/
def readPlain (inFlow : Bool) (indent : Nat) (c : Cursor) : Option PlainScalar :=
  readPlainFrom inFlow indent c.mark [] .empty c.rest

/-! ### Quoted scalars -/

/-- Reads on behind a single quote. A quote inside is written twice. -/
def readSingleFrom (m : Mark) (text : List Char) (gap : Gap) :
    List Char → Option (String × Cursor)
  | [] => none
  | c :: cs =>
    if isBlank c then readSingleFrom (m.after c) text (gap.addBlank c) cs
    else if isBreak c then readSingleFrom (m.after c) text (gap.addBreak c) cs
    else if isDocumentMarker m (c :: cs) then none
    else if c = '\x27' then
      match cs with
      | '\x27' :: cs =>
        readSingleFrom (m.afterAll ['\x27', '\x27']) ('\x27' :: addGap text gap) .empty cs
      | cs => some (String.ofList (addGap text gap).reverse, ⟨m.after c, cs⟩)
    else readSingleFrom (m.after c) (c :: addGap text gap) .empty cs

/-- Reads the scalar in single quotes at the cursor. -/
def readSingleQuoted (c : Cursor) : Option (String × Cursor) :=
  let c := c.skip 1
  readSingleFrom c.mark [] .empty c.rest

/-- The character that a letter stands for behind a backslash. -/
def escapedChar? (c : Char) : Option Char :=
  match c with
  | '0' => some '\x00'
  | 'a' => some '\x07'
  | 'b' => some '\x08'
  | 't' => some '\t'
  | '\t' => some '\t'
  | 'n' => some '\n'
  | 'v' => some '\x0b'
  | 'f' => some '\x0c'
  | 'r' => some '\r'
  | 'e' => some '\x1b'
  | ' ' => some ' '
  | '"' => some '"'
  | '/' => some '/'
  | '\\' => some '\\'
  | 'N' => some '\u0085'
  | '_' => some '\u00a0'
  | 'L' => some '\u2028'
  | 'P' => some '\u2029'
  | _ => none

/-- How many hexadecimal digits follow a letter behind a backslash. -/
def escapeLength? (c : Char) : Option Nat :=
  match c with
  | 'x' => some 2
  | 'u' => some 4
  | 'U' => some 8
  | _ => none

/-- Where a reader of double quotes stands. -/
inductive EscapeState where
  /-- Outside of escapes. -/
  | outside
  /-- Behind a backslash. -/
  | backslash
  /-- With `left` more digits to read, at least one, after those of `value`. -/
  | digits (left value : Nat)

/-- Reads on behind a double quote. -/
def readDoubleFrom (m : Mark) (text : List Char) (gap : Gap) :
    EscapeState → List Char → Option (String × Cursor)
  | _, [] => none
  | .outside, c :: cs =>
    if isBlank c then readDoubleFrom (m.after c) text (gap.addBlank c) .outside cs
    else if isBreak c then readDoubleFrom (m.after c) text (gap.addBreak c) .outside cs
    else if isDocumentMarker m (c :: cs) then none
    else if c = '"' then some (String.ofList (addGap text gap).reverse, ⟨m.after c, cs⟩)
    else if c = '\\' then readDoubleFrom (m.after c) (addGap text gap) .empty .backslash cs
    else readDoubleFrom (m.after c) (c :: addGap text gap) .empty .outside cs
  | .backslash, c :: cs =>
    if isBreak c then readDoubleFrom (m.after c) text (.breaks none []) .outside cs
    else
      match escapedChar? c with
      | some x => readDoubleFrom (m.after c) (x :: text) .empty .outside cs
      | none =>
        match escapeLength? c with
        | some n => readDoubleFrom (m.after c) text .empty (.digits n 0) cs
        | none => none
  | .digits left value, c :: cs =>
    match Text.hexDigit? c with
    | none => none
    | some d =>
      let value := 16 * value + d
      if left ≤ 1 then
        match Text.charOfCode? value with
        | some x => readDoubleFrom (m.after c) (x :: text) .empty .outside cs
        | none => none
      else readDoubleFrom (m.after c) text .empty (.digits (left - 1) value) cs

/-- Reads the scalar in double quotes at the cursor. -/
def readDoubleQuoted (c : Cursor) : Option (String × Cursor) :=
  let c := c.skip 1
  readDoubleFrom c.mark [] .empty .outside c.rest

end TreePath.Yaml
