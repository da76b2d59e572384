import TreePath.Yaml.Token.BlockScalar
import TreePath.Yaml.Token.FlowScalar
import TreePath.Yaml.Token.Property

/-! # The tokens of a text

Tokens are read from left to right. Outside of flow collections the indentation of a line closes
block collections, and an item or a key that is indented more than the collection around it opens
one. A key need not be marked: whatever may be one is remembered, and becomes a key when a colon
follows on the same line within 1024 bytes. Then the marks of the key, and of the mapping if it
opens one, are put in front of the tokens read since.

* `Layout`: the tokens so far, the open collections, and the possible keys.
* `Layout.fetch`: one more token.
* `tokens?`: the tokens of a whole text, unless some part of it is no token. -/

namespace TreePath.Yaml

/-- A place where a key may start. -/
structure KeyCandidate where
  /-- Whether only a key can stand here. -/
  isRequired : Bool
  /-- The number of tokens before it. -/
  index : Nat
  mark : Mark
  deriving Repr

/-- A text that is read up to a cursor. -/
structure Layout where
  cursor : Cursor
  tokens : Array Token
  /-- The column of the innermost block collection, `-1` outside of all. -/
  indent : Int
  /-- The columns of the block collections around it, the innermost first. -/
  outer : List Int
  /-- The possible key of each open flow collection, the innermost first, and that of the block
  context. -/
  keys : List (Option KeyCandidate)
  /-- Whether a key may start at the next token. -/
  keyAllowed : Bool
  deriving Repr

namespace Layout

/-- The start of a text. -/
def start (cs : List Char) : Layout := ⟨.ofText cs, #[], -1, [], [none], true⟩

/-- Whether some flow collection is open. -/
def inFlow (s : Layout) : Bool := s.keys.length > 1

def column (s : Layout) : Nat := s.cursor.mark.column

/-- Adds a token. -/
def push (t : Token) (s : Layout) : Layout := { s with tokens := s.tokens.push t }

def allowKey (b : Bool) (s : Layout) : Layout := { s with keyAllowed := b }

/-! ### Possible keys -/

/-- The bytes in UTF-8 that may stand between the start of an unmarked key and its colon. -/
def maxKeyBytes : Nat := 1024

/-- A possible key is out of date on a later line, and on its own line behind too many bytes. -/
def isStale (m : Mark) (k : KeyCandidate) : Bool :=
  k.mark.line < m.line || k.mark.offset + maxKeyBytes < m.offset

/-- Forgets possible keys that are out of date; none of them may be required. -/
def dropStale (s : Layout) : Option Layout :=
  let stale (k : Option KeyCandidate) : Bool := k.any (isStale s.cursor.mark)
  if s.keys.any fun k => stale k && k.any (·.isRequired) then none
  else some { s with keys := s.keys.map fun k => if stale k then none else k }

/-- Forgets the innermost possible key, which may not be required. -/
def dropKey (s : Layout) : Option Layout :=
  match s.keys with
  | some k :: rest => if k.isRequired then none else some { s with keys := none :: rest }
  | _ => some s

/-- Remembers the next token as a possible key, if a key may start here. -/
def saveKey (s : Layout) : Option Layout :=
  if s.keyAllowed then do
    let isRequired := !s.inFlow && s.indent == s.column
    let s ← s.dropKey
    return { s with keys := some ⟨isRequired, s.tokens.size, s.cursor.mark⟩ :: s.keys.drop 1 }
  else some s

/-! ### Indentation -/

/-- Closes collections indented by more than `column`. -/
def closeFrom (column indent : Int) (tokens : Array Token) : List Int → Int × List Int × Array Token
  | [] => (indent, [], tokens)
  | i :: outer =>
    if column < indent then closeFrom column i (tokens.push .blockEnd) outer
    else (indent, i :: outer, tokens)

/-- Closes block collections indented by more than `column`, unless a flow collection is open. -/
def close (column : Int) (s : Layout) : Layout :=
  if s.inFlow then s
  else
    let (indent, outer, tokens) := closeFrom column s.indent s.tokens s.outer
    { s with indent, outer, tokens }

/-- Opens a block collection at a column that is indented by more than the innermost one, unless a
flow collection is open. Its token is put at the given place, at the end without one. -/
def openAt (column : Nat) (place : Option Nat) (t : Token) (s : Layout) : Layout :=
  if s.inFlow || column ≤ s.indent then s
  else
    let tokens := match place with
      | some i => s.tokens.insertIdxIfInBounds i t
      | none => s.tokens.push t
    { s with indent := column, outer := s.indent :: s.outer, tokens }

/-! ### Tokens -/

/-- Skips white space and comments. A break outside of flow collections allows a key, and where a
key may start no tab is skipped. -/
def skipSpaceFrom (inFlow : Bool) (m : Mark) (keyAllowed inComment : Bool) :
    List Char → Cursor × Bool
  | [] => (⟨m, []⟩, keyAllowed)
  | c :: cs =>
    if isBreak c then skipSpaceFrom inFlow (m.after c) (keyAllowed || !inFlow) false cs
    else if inComment || (c == byteOrderMark && m.column == 0) || c == ' ' ||
        (c == '\t' && (inFlow || !keyAllowed)) then
      skipSpaceFrom inFlow (m.after c) keyAllowed inComment cs
    else if c == '#' then skipSpaceFrom inFlow (m.after c) keyAllowed true cs
    else (⟨m, c :: cs⟩, keyAllowed)

def skipSpace (s : Layout) : Layout :=
  let (cursor, keyAllowed) :=
    skipSpaceFrom s.inFlow s.cursor.mark s.keyAllowed false s.cursor.rest
  { s with cursor, keyAllowed }

/-- Takes `n` characters as a token. -/
def take (n : Nat) (t : Token) (s : Layout) : Layout :=
  { s with cursor := s.cursor.skip n, tokens := s.tokens.push t }

/-- Goes on behind a token that was read. -/
def took (t : Token) (c : Cursor) (s : Layout) : Layout :=
  { s with cursor := c, tokens := s.tokens.push t }

/-- The end of the text closes everything. -/
def finish (s : Layout) : Option Layout := do
  let s ← (s.close (-1)).dropKey
  return (s.allowKey false).push .streamEnd

/-- `---` or `...` closes every block collection. -/
def marker (t : Token) (s : Layout) : Option Layout := do
  let s ← (s.close (-1)).dropKey
  return (s.allowKey false).take 3 t

def directive (s : Layout) : Option Layout := do
  let s ← (s.close (-1)).dropKey
  let (t, c) ← readDirective s.cursor
  return (s.allowKey false).took t c

/-- The bracket or brace that opens a flow collection, which may itself be a key. -/
def openFlow (t : Token) (s : Layout) : Option Layout := do
  let s ← s.saveKey
  return ({ s with keys := none :: s.keys }.allowKey true).take 1 t

/-- The bracket or brace that closes a flow collection. -/
def closeFlow (t : Token) (s : Layout) : Option Layout := do
  let s ← s.dropKey
  let keys := if s.inFlow then s.keys.drop 1 else s.keys
  return ({ s with keys }.allowKey false).take 1 t

def comma (s : Layout) : Option Layout := do
  let s ← s.dropKey
  return (s.allowKey true).take 1 .comma

/-- The dash of an item, which may open a block sequence. -/
def item (s : Layout) : Option Layout := do
  if !s.inFlow && !s.keyAllowed then none
  let s ← (s.openAt s.column none .blockSequenceStart).dropKey
  return (s.allowKey true).take 1 .item

/-- The question mark of a key, which may open a block mapping. -/
def key (s : Layout) : Option Layout := do
  if !s.inFlow && !s.keyAllowed then none
  let s ← (s.openAt s.column none .blockMappingStart).dropKey
  return (s.allowKey !s.inFlow).take 1 .key

/-- The colon of a value. It makes a possible key one, or else may open a block mapping. -/
def value (s : Layout) : Option Layout :=
  match s.keys with
  | some k :: rest =>
    let s := { s with tokens := s.tokens.insertIdxIfInBounds k.index .key, keys := none :: rest }
    let s := s.openAt k.mark.column (some k.index) .blockMappingStart
    some ((s.allowKey false).take 1 .value)
  | _ =>
    if !s.inFlow && !s.keyAllowed then none
    else
      let s := s.openAt s.column none .blockMappingStart
      some ((s.allowKey !s.inFlow).take 1 .value)

/-- A word that may be a key or come in front of one. -/
def word (read : Cursor → Option (Token × Cursor)) (s : Layout) : Option Layout := do
  let s ← s.saveKey
  let (t, c) ← read s.cursor
  return (s.allowKey false).took t c

def quoted (read : Cursor → Option (String × Cursor)) (s : Layout) : Option Layout :=
  s.word fun c => (read c).map fun (text, c) => (.scalar text false, c)

/-- A plain scalar; a key may follow if a break does. -/
def plain (s : Layout) : Option Layout := do
  let s ← s.saveKey
  let scalar ← readPlain s.inFlow (s.indent + 1).toNat s.cursor
  return (s.allowKey scalar.brokeLine).took (.scalar scalar.text true) scalar.cursor

def block (isFolded : Bool) (s : Layout) : Option Layout := do
  let s ← s.dropKey
  let (text, c) ← readBlockScalar isFolded s.indent s.cursor
  return (s.allowKey true).took (.scalar text false) c

/-- A character that starts no plain scalar. -/
def isIndicator (c : Char) : Bool :=
  isBlank c || c ∈ ['-', '?', ':', ',', '[', ']', '\x7b', '\x7d', '#', '&', '*', '!', '|', '>',
    '\x27', '"', '%', '@', '\x60']

/-- Whether a plain scalar can start with `c` in front of `cs`. -/
def startsPlain (inFlow : Bool) (c : Char) (cs : List Char) : Bool :=
  !isIndicator c || (c == '-' && !cs.head?.any isBlank) ||
    (!inFlow && (c == '?' || c == ':') && !endsWord cs)

/-- Reads the next token behind white space. -/
def fetchHere (s : Layout) (c : Char) (cs : List Char) : Option Layout :=
  let m := s.cursor.mark
  if m.column = 0 && c = '%' then s.directive
  else if isMarkerLine '-' m (c :: cs) then s.marker .documentStart
  else if isMarkerLine '.' m (c :: cs) then s.marker .documentEnd
  else if c = '[' then s.openFlow .flowSequenceStart
  else if c = '\x7b' then s.openFlow .flowMappingStart
  else if c = ']' then s.closeFlow .flowSequenceEnd
  else if c = '\x7d' then s.closeFlow .flowMappingEnd
  else if c = ',' then s.comma
  else if c = '-' && endsWord cs then s.item
  else if c = '?' && (s.inFlow || endsWord cs) then s.key
  else if c = ':' && (s.inFlow || endsWord cs) then s.value
  else if c = '*' then s.word fun c => (readAnchor c).map fun (name, c) => (.reference name, c)
  else if c = '&' then s.word fun c => (readAnchor c).map fun (name, c) => (.anchor name, c)
  else if c = '!' then s.word (readTag s.inFlow)
  else if c = '|' && !s.inFlow then s.block false
  else if c = '>' && !s.inFlow then s.block true
  else if c = '\x27' then s.quoted readSingleQuoted
  else if c = '"' then s.quoted readDoubleQuoted
  else if startsPlain s.inFlow c cs then s.plain
  else none

/-- Reads the next token, or ends the stream. -/
def fetch (s : Layout) : Option Layout := do
  let s ← s.skipSpace.dropStale
  let s := s.close s.column
  match s.cursor.rest with
  | [] => s.finish
  | c :: cs => s.fetchHere c cs

/-- Reads tokens up to the end of the stream, at most `fuel` of them. -/
def fetchAll : Nat → Layout → Option (Array Token)
  | 0, _ => none
  | fuel + 1, s => do
    let s ← s.fetch
    if s.tokens.back? == some .streamEnd then return s.tokens
    fetchAll fuel s

end Layout

/-- The tokens of a text. A token takes a character at least, so there are not more tokens than
characters, the end of the stream apart. -/
def tokens? (text : String) : Option (Array Token) :=
  if text.toList.all isAllowed then
    let cs := unifyBreaks text.toList
    Layout.fetchAll (cs.length + 1) (.start cs)
  else none

end TreePath.Yaml
