import TreePath.Yaml.Chars

/-! # Block scalars

A block scalar is a header and lines indented by at least as much as its first one. A literal scalar
keeps its breaks. In a folded one a single line feed between two lines becomes a space, unless one
of the lines starts with a blank. The header tells what becomes of the breaks at the end, and may
tell the indentation, counted from that of the parent.

* `readBlockScalar`: the scalar whose indicator is at the cursor. -/

namespace TreePath.Yaml

/-- What becomes of the breaks at the end of a block scalar. -/
inductive Chomping where
  /-- All go. -/
  | strip
  /-- The first stays. -/
  | clip
  /-- All stay. -/
  | keep
  deriving DecidableEq

/-- What the line of the indicator tells. -/
structure BlockHeader where
  chomping : Chomping
  /-- The indentation over that of the parent. -/
  indent : Option Nat

/-- A character that tells the chomping. -/
def chomping? (c : Char) : Option Chomping :=
  if c = '+' then some .keep else if c = '-' then some .strip else none

/-- The chomping at the cursor, `clip` if none is written. -/
def readChomping (c : Cursor) : Chomping × Cursor :=
  match c.rest.head?.bind chomping? with
  | some chomping => (chomping, c.skip 1)
  | none => (.clip, c)

/-- The indentation at the cursor, if it is written; zero is refused. -/
def readIndent (c : Cursor) : Option (Option Nat × Cursor) :=
  match c.rest.head? with
  | some d =>
    if d = '0' then none
    else if d.isDigit then some (some (d.toNat - '0'.toNat), c.skip 1)
    else some (none, c)
  | none => some (none, c)

/-- Reads chomping and indentation, in either order. -/
def readBlockHeader (c : Cursor) : Option (BlockHeader × Cursor) :=
  if (c.rest.head?.bind chomping?).isSome then
    let (chomping, c) := readChomping c
    (readIndent c).map fun (indent, c) => (⟨chomping, indent⟩, c)
  else
    (readIndent c).map fun (indent, c) =>
      match indent with
      | some _ => let (chomping, c) := readChomping c; (⟨chomping, indent⟩, c)
      | none => (⟨.clip, none⟩, c)

/-! ### Lines -/

/-- The text of a block scalar as far as it is read. -/
structure BlockText where
  /-- The characters, the last first. -/
  text : List Char
  /-- The break that ended the last line of text. -/
  lineBreak : Option Char
  /-- The breaks of the empty lines after it. -/
  emptyLines : List Char
  /-- Whether the last line of text started with a blank. -/
  startedBlank : Bool

namespace BlockText

/-- Before the first line of text, after some empty lines. -/
def start (emptyLines : List Char) : BlockText := ⟨[], none, emptyLines, false⟩

/-- The breaks so far become text, since a line follows that starts with `c`. -/
def startLine (isFolded : Bool) (c : Char) (b : BlockText) : BlockText :=
  let joint :=
    if isFolded && b.lineBreak == some '\n' && !b.startedBlank && !isBlank c then
      if b.emptyLines = [] then [' '] else b.emptyLines
    else b.lineBreak.toList ++ b.emptyLines
  ⟨c :: (joint.reverse ++ b.text), none, [], isBlank c⟩

/-- One more character of a line. -/
def add (c : Char) (b : BlockText) : BlockText :=
  ⟨c :: b.text, b.lineBreak, b.emptyLines, b.startedBlank⟩

/-- The break at the end of a line of text. -/
def endLine (c : Char) (b : BlockText) : BlockText :=
  ⟨b.text, some c, b.emptyLines, b.startedBlank⟩

/-- The break of an empty line. -/
def addEmptyLine (c : Char) (b : BlockText) : BlockText :=
  ⟨b.text, b.lineBreak, b.emptyLines ++ [c], b.startedBlank⟩

/-- The text with the breaks at its end that the chomping leaves. -/
def finish (chomping : Chomping) (b : BlockText) : String :=
  let ending := match chomping with
    | .strip => []
    | .clip => b.lineBreak.toList
    | .keep => b.lineBreak.toList ++ b.emptyLines
  String.ofList (b.text.reverse ++ ending)

end BlockText

/-- Skips the indentation of the first line of text and the empty lines before it. Gives the breaks
of these and the greatest indentation among them. -/
def readFirstIndent (m : Mark) (breaks : List Char) (deepest : Nat) :
    List Char → Option (List Char × Nat × Cursor)
  | [] => some (breaks, max deepest m.column, ⟨m, []⟩)
  | c :: cs =>
    if c = ' ' then readFirstIndent (m.after c) breaks deepest cs
    else if c = '\t' then none
    else if isBreak c then
      readFirstIndent (m.after c) (breaks ++ [c]) (max deepest m.column) cs
    else some (breaks, max deepest m.column, ⟨m, c :: cs⟩)

/-- Reads lines as long as they are empty or indented by `indent`; `inLine` tells whether the
indentation of the current line is behind. -/
def readLines (isFolded : Bool) (indent : Nat) (m : Mark) (b : BlockText) (inLine : Bool) :
    List Char → Option (BlockText × Cursor)
  | [] => some (b, ⟨m, []⟩)
  | c :: cs =>
    if inLine then
      if isBreak c then readLines isFolded indent (m.after c) (b.endLine c) false cs
      else readLines isFolded indent (m.after c) (b.add c) true cs
    else if m.column < indent && c == ' ' then
      readLines isFolded indent (m.after c) b false cs
    else if m.column < indent && c == '\t' then none
    else if isBreak c then readLines isFolded indent (m.after c) (b.addEmptyLine c) false cs
    else if m.column = indent then
      readLines isFolded indent (m.after c) (b.startLine isFolded c) true cs
    else some (b, ⟨m, c :: cs⟩)

/-- Reads the block scalar whose indicator is at the cursor, inside a collection of some
indentation, `-1` outside of all. -/
def readBlockScalar (isFolded : Bool) (parent : Int) (c : Cursor) : Option (String × Cursor) := do
  let (header, c) ← readBlockHeader (c.skip 1)
  let c ← c.endLine?
  let (b, c) ← match header.indent with
    | some n =>
      let indent := parent.toNat + n
      readLines isFolded indent c.mark (.start []) false c.rest
    | none => do
      let (breaks, deepest, c) ← readFirstIndent c.mark [] 0 c.rest
      let indent := max (max deepest (parent + 1).toNat) 1
      readLines isFolded indent c.mark (.start breaks) false c.rest
  return (b.finish header.chomping, c)

end TreePath.Yaml
