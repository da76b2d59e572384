/-! # Characters and positions of YAML text

A text may hold tabs, line breaks, and the printable characters; any other character makes it no
YAML. Line feeds, carriage returns, their pair, and the next-line character U+0085 are one kind of
break, read as a line feed; the line separator and the paragraph separator are breaks of their own.

A `Mark` is a line and a place on it, counted in characters and in bytes, all from zero. A `Cursor`
is what is left of a text with the mark of its first character. -/

namespace TreePath.Yaml

/-- A character that YAML text may hold. -/
def isAllowed (c : Char) : Bool :=
  let n := c.toNat
  n = 0x9 || n = 0xA || n = 0xD || (0x20 ≤ n && n ≤ 0x7E) || n = 0x85 ||
    (0xA0 ≤ n && n ≤ 0xD7FF) || (0xE000 ≤ n && n ≤ 0xFFFD) || 0x10000 ≤ n

/-- The mark of the byte order, allowed at the start of a line. -/
def byteOrderMark : Char := '\ufeff'

/-- Every break that counts as a line feed is made one. -/
def unifyBreaks : List Char → List Char
  | [] => []
  | '\r' :: '\n' :: cs => '\n' :: unifyBreaks cs
  | '\r' :: cs => '\n' :: unifyBreaks cs
  | '\u0085' :: cs => '\n' :: unifyBreaks cs
  | c :: cs => c :: unifyBreaks cs

/-- A break, once breaks are unified. -/
def isBreak (c : Char) : Bool := c == '\n' || c == '\u2028' || c == '\u2029'

/-- A space or a tab. -/
def isBlank (c : Char) : Bool := c == ' ' || c == '\t'

/-- Whether a word ends here: at a blank, at a break or at the end of the text. -/
def endsWord : List Char → Bool
  | [] => true
  | c :: _ => isBlank c || isBreak c

/-- Whether a line ends here: at a break or at the end of the text. -/
def endsLine : List Char → Bool
  | [] => true
  | c :: _ => isBreak c

/-- A letter, a digit, `-` or `_` of ASCII. -/
def isWordChar (c : Char) : Bool := c.isAlphanum || c == '-' || c == '_'

/-! ### Positions -/

/-- A line and a place on it, from zero. -/
structure Mark where
  line : Nat
  /-- The characters before it on its line. -/
  column : Nat
  /-- The bytes before it on its line, in UTF-8. -/
  offset : Nat
  deriving DecidableEq, Repr, Inhabited

namespace Mark

/-- The start of a text. -/
def start : Mark := ⟨0, 0, 0⟩

/-- The mark behind a character. -/
def after (m : Mark) (c : Char) : Mark :=
  if isBreak c then ⟨m.line + 1, 0, 0⟩ else ⟨m.line, m.column + 1, m.offset + c.utf8Size⟩

/-- The mark behind characters. -/
def afterAll (m : Mark) (cs : List Char) : Mark := cs.foldl after m

end Mark

/-- What is left of a text, and where it starts. -/
structure Cursor where
  mark : Mark
  rest : List Char
  deriving Repr, Inhabited

namespace Cursor

/-- The cursor at the start of a text. -/
def ofText (cs : List Char) : Cursor := ⟨.start, cs⟩

/-- The cursor behind its first `n` characters. -/
def skip (c : Cursor) (n : Nat) : Cursor := ⟨c.mark.afterAll (c.rest.take n), c.rest.drop n⟩

/-- The cursor behind the first character, whatever it is. -/
def next (c : Cursor) : Cursor :=
  match c.rest with
  | [] => c
  | x :: rest => ⟨c.mark.after x, rest⟩

/-- The leading characters that satisfy `p`, and the cursor behind. -/
def span (p : Char → Bool) (c : Cursor) : List Char × Cursor :=
  let taken := c.rest.takeWhile p
  (taken, ⟨c.mark.afterAll taken, c.rest.drop taken.length⟩)

/-- The cursor behind blanks. -/
def skipBlanks (c : Cursor) : Cursor := (c.span isBlank).2

/-- The cursor at the end of the line. -/
def skipToBreak (c : Cursor) : Cursor := (c.span fun x => !isBreak x).2

/-- Blanks and a comment may follow, and then the line has to end; the cursor behind its break. -/
def endLine? (c : Cursor) : Option Cursor :=
  let c := c.skipBlanks
  let c := if c.rest.head? = some '#' then c.skipToBreak else c
  if endsLine c.rest then some c.next else none

end Cursor

/-- Whether a line starts here with the three characters `x` as a word. -/
def isMarkerLine (x : Char) (m : Mark) (cs : List Char) : Bool :=
  m.column = 0 && [x, x, x].isPrefixOf cs && endsWord (cs.drop 3)

/-- Whether a line starts here with `---` or `...` as a word. -/
def isDocumentMarker (m : Mark) (cs : List Char) : Bool :=
  isMarkerLine '-' m cs || isMarkerLine '.' m cs

end TreePath.Yaml
