import TreePath.Text.Blank
import TreePath.Yaml.Chars
import TreePath.Yaml.Value.Scalar

/-! # Values in block style

A value is written as YAML with two columns of indentation for each level. Sequences that are values
of mappings are not indented, empty collections are written in brackets and braces, and a key that
is no short scalar on one line is marked by a question mark. A string is written plain if it reads
back as the string, else in single quotes, and in double quotes if some character of it has to be
escaped; a string with a line feed is a literal scalar if it can be one.

A tag in front of a value takes the place where a mapping of one entry would start. So an untagged
mapping of one entry cannot be written if its key begins with a tag, or is itself such a mapping.

* `ScalarShape` and `ScalarShape.of`: what the characters of a scalar allow.
* `Sheet`: text written so far, with the state of the line.
* `Value.isWritable`: whether a value can be written.
* `Value.blockText`: a value as text, without white space at the end. -/

namespace TreePath.Yaml

/-! ### Scalars -/

/-- A character that can be written as it is. -/
def isPrintable (c : Char) : Bool :=
  let n := c.toNat
  n = 0xA || (0x20 ≤ n && n ≤ 0x7E) || (0xA0 ≤ n && n ≤ 0xD7FF) ||
    (0xE000 ≤ n && n ≤ 0xFFFD && n ≠ 0xFEFF) || 0x10000 ≤ n

/-- A character that ends a line of written text. -/
def isWrittenBreak (c : Char) : Bool := isBreak c || c == '\r' || c == '\u0085'

/-- Where a word ends in written text. -/
def endsWrittenWord : List Char → Bool
  | [] => true
  | c :: _ => isBlank c || isWrittenBreak c

/-- How a scalar can be written. -/
structure ScalarShape where
  plain : Bool
  single : Bool
  literal : Bool
  /-- Whether there is a break in it. -/
  hasBreak : Bool

namespace ScalarShape

/-- An indicator that a plain scalar cannot start with, in front of `rest`. -/
def isLeadingIndicator (c : Char) (rest : List Char) : Bool :=
  c ∈ ['#', ',', '[', ']', '\x7b', '\x7d', '&', '*', '!', '|', '>', '\x27', '"', '%', '@',
    '\x60'] || (c ∈ ['?', ':', '-'] && endsWrittenWord rest)

/-- Whether some character, with the one before it and those behind it, satisfies `p`. -/
def anyInside (p : Char → Char → List Char → Bool) (before : Char) : List Char → Bool
  | [] => false
  | c :: cs => p before c cs || anyInside p c cs

/-- An indicator that a plain scalar cannot hold, behind `before` and in front of `rest`. -/
def isInnerIndicator (before c : Char) (rest : List Char) : Bool :=
  (c == ':' && endsWrittenWord rest) || (c == '#' && (isBlank before || isWrittenBreak before))

/-- What the characters of a scalar allow. -/
def of (cs : List Char) : ScalarShape :=
  match cs with
  | [] => ⟨true, true, false, false⟩
  | first :: rest =>
    let last := cs.getLastD first
    let isMarker := ['-', '-', '-'].isPrefixOf cs || ['.', '.', '.'].isPrefixOf cs
    let hasIndicator := isMarker || isLeadingIndicator first rest ||
      anyInside isInnerIndicator first rest
    let hasBreak := cs.any isWrittenBreak
    let isEscaped := cs.any fun c => !isPrintable c
    let spaceBreak := anyInside (fun b c _ => b == ' ' && isWrittenBreak c) first rest
    let breakSpace := anyInside (fun b c _ => isWrittenBreak b && c == ' ') first rest
    let hasEdge := first == ' ' || last == ' '
    { plain := !hasIndicator && !hasBreak && !isEscaped && !hasEdge
      single := !spaceBreak && !breakSpace && !isEscaped
      literal := last != ' ' && !spaceBreak && !isEscaped
      hasBreak }

end ScalarShape

/-- A way to write a scalar. -/
inductive ScalarStyle where
  | plain
  | single
  | double
  | literal
  deriving DecidableEq

/-- Whether a plain scalar with this text is, or looks like, something other than this string. -/
def needsQuotes (s : String) : Bool :=
  hasLeadingZero s.toList ||
    match readUntagged s with
    | some (.string _) => false
    | _ => true

/-- The style of a string outside of short keys. -/
def stringStyle (s : String) : ScalarStyle :=
  let shape := ScalarShape.of s.toList
  if s.toList.contains '\n' then if shape.literal then .literal else .double
  else if shape.plain && !needsQuotes s then .plain
  else if shape.single then .single
  else .double

/-! ### Written text -/

/-- Text written so far, the last character first. -/
structure Sheet where
  chars : List Char
  column : Nat
  /-- Whether a word may follow without a space. -/
  afterSpace : Bool
  /-- Whether there is only indentation on the line, dashes and question marks included. -/
  atStart : Bool

namespace Sheet

def empty : Sheet := ⟨[], 0, true, true⟩

def put (c : Char) (s : Sheet) : Sheet :=
  { s with chars := c :: s.chars, column := if isBreak c then 0 else s.column + 1 }

def putAll (cs : List Char) (s : Sheet) : Sheet := cs.foldl (fun s c => s.put c) s

/-- A space, unless a word may follow without one. -/
def separate (s : Sheet) : Sheet := if s.afterSpace then s else s.put ' '

/-- The text is behind a word. -/
def afterWord (s : Sheet) : Sheet := { s with afterSpace := false, atStart := false }

/-- An indicator behind a space; if `keepsStart`, the line is still at its start behind it. -/
def indicator (cs : List Char) (keepsStart : Bool) (s : Sheet) : Sheet :=
  let s := s.separate.putAll cs
  { s with afterSpace := false, atStart := s.atStart && keepsStart }

/-- An indicator that follows what is in front of it without a space. -/
def attached (cs : List Char) (s : Sheet) : Sheet := (s.putAll cs).afterWord

/-- Goes to a column at the start of a line, the current one if it is not yet beyond. -/
def startLine (indent : Nat) (s : Sheet) : Sheet :=
  let s := if !s.atStart || indent < s.column || (s.column == indent && !s.afterSpace) then
    s.put '\n' else s
  { s.putAll (List.replicate (indent - s.column) ' ') with afterSpace := true, atStart := true }

/-! ### Writing scalars -/

/-- Characters between single quotes, a quote twice. Behind a break the text goes on at `indent`. -/
def putSingle (indent : Nat) (afterBreak : Bool) : List Char → Sheet → Sheet
  | [], s => if afterBreak then s.startLine indent else s
  | c :: cs, s =>
    if isBreak c then putSingle indent true cs { s.put c with atStart := true }
    else
      let s := if afterBreak && c != ' ' then s.startLine indent else s
      let s := if c == '\x27' then s.put c else s
      putSingle indent (afterBreak && c == ' ') cs { s.put c with atStart := false }

/-- Uppercase hexadecimal digits of a number, filled with zeros to a width. -/
def hexDigits (width n : Nat) : List Char :=
  let digits := (Nat.toDigits 16 n).map Char.toUpper
  List.replicate (width - digits.length) '0' ++ digits

/-- A character as it stands between double quotes. -/
def doubleChar (c : Char) : List Char :=
  match c with
  | '\x00' => ['\\', '0']
  | '\x07' => ['\\', 'a']
  | '\x08' => ['\\', 'b']
  | '\t' => ['\\', 't']
  | '\n' => ['\\', 'n']
  | '\x0b' => ['\\', 'v']
  | '\x0c' => ['\\', 'f']
  | '\r' => ['\\', 'r']
  | '\x1b' => ['\\', 'e']
  | '"' => ['\\', '"']
  | '\\' => ['\\', '\\']
  | '\u0085' => ['\\', 'N']
  | '\u2028' => ['\\', 'L']
  | '\u2029' => ['\\', 'P']
  | c =>
    let n := c.toNat
    if isPrintable c then [c]
    else if n ≤ 0xFF then '\\' :: 'x' :: hexDigits 2 n
    else if n ≤ 0xFFFF then '\\' :: 'u' :: hexDigits 4 n
    else '\\' :: 'U' :: hexDigits 8 n

/-- The lines of a literal scalar, each at `indent` unless it is empty. -/
def putLines (indent : Nat) (afterBreak : Bool) : List Char → Sheet → Sheet
  | [], s => s
  | c :: cs, s =>
    if isBreak c then putLines indent true cs { s.put c with atStart := true }
    else
      let s := if afterBreak then s.startLine indent else s
      putLines indent false cs { s.put c with atStart := false }

/-- What the header of a literal scalar tells: that the first line starts with white space, and what
becomes of the breaks at the end. -/
def literalHints (cs : List Char) : List Char :=
  let indentHint := if cs.head?.any fun c => c == ' ' || isBreak c then ['2'] else []
  let chomping := match cs.reverse with
    | [] => ['-']
    | [c] => if isBreak c then ['+'] else ['-']
    | c :: d :: _ => if !isBreak c then ['-'] else if isBreak d then ['+'] else []
  indentHint ++ chomping

/-- A scalar in a style, inside of a collection whose column is `indent`. -/
def scalar (indent : Nat) (style : ScalarStyle) (cs : List Char) (s : Sheet) : Sheet :=
  match style with
  | .plain => ((if cs.isEmpty then s else s.separate).putAll cs).afterWord
  | .single =>
    ((putSingle indent false cs (s.indicator ['\x27'] false)).put '\x27').afterWord
  | .double => (s.indicator ['"'] false).attached (cs.flatMap doubleChar ++ ['"'])
  | .literal =>
    let s := ((s.indicator ['|'] false).attached (literalHints cs)).put '\n'
    putLines indent true cs { s with afterSpace := true, atStart := true }

/-! ### Tags -/

/-- A character of a tag that need not be escaped. -/
def isTagChar (c : Char) : Bool :=
  isWordChar c || c ∈ [';', '/', '?', ':', '@', '&', '=', '+', '$', ',', '.', '~', '*', '\x27',
    '(', ')', '[', ']']

/-- The characters of a tag, each byte of any other one escaped. -/
def tagChars (cs : List Char) : List Char :=
  cs.flatMap fun c =>
    if isTagChar c then [c]
    else c.toString.toUTF8.toList.flatMap fun b => '%' :: hexDigits 2 b.toNat

/-- The characters of a tag with its `!`. -/
def fullTag (tag : String) : List Char :=
  match (bareTag tag).toList with
  | '!' :: cs => '!' :: cs
  | cs => '!' :: cs

/-- A tag as it is written; the tag `!` is written between angle brackets. -/
def tagText (tag : String) : List Char :=
  match fullTag tag with
  | [c] => ['!', '<'] ++ tagChars [c] ++ ['>']
  | cs => '!' :: tagChars (cs.drop 1)

/-- The tag of a value, if it has one. -/
def tag (t : Option String) (s : Sheet) : Sheet :=
  match t with
  | some t => s.indicator (tagText t) false
  | none => s

end Sheet

/-! ### Values that can be written -/

/-- Whether a value is tagged or a mapping of one entry. -/
def Value.isTagLike : Value → Bool
  | .tagged _ _ | .mapping [_] => true
  | _ => false

mutual

/-- Whether a value can be written, behind a tag or not. There is at most one tag in front of it,
and a mapping that has only one entry needs a tag if its key is like a tag. -/
def Value.isWritable (isTagged : Bool) : Value → Bool
  | .tagged _ v => !isTagged && v.isWritable true
  | .sequence vs => areWritable vs
  | .mapping [(k, v)] => (isTagged || !k.isTagLike) && k.isWritable false && v.isWritable false
  | .mapping es => areEntriesWritable es
  | _ => true

/-- Whether all items of a sequence can be written. -/
def areWritable : List Value → Bool
  | [] => true
  | v :: vs => v.isWritable false && areWritable vs

/-- Whether all keys and values of a mapping can be written. -/
def areEntriesWritable : List (Value × Value) → Bool
  | [] => true
  | (k, v) :: es => k.isWritable false && v.isWritable false && areEntriesWritable es

end

/-! ### Values as text -/

/-- The text and style of a scalar, none of a collection. -/
def Value.scalarForm? : Value → Option (List Char × ScalarStyle)
  | .null => some ("null".toList, .plain)
  | .bool b => some ((if b then "true" else "false").toList, .plain)
  | .number n => some (n.text.toList, .plain)
  | .string s => some (s.toList, stringStyle s)
  | .sequence [] => some (['[', ']'], .plain)
  | .mapping [] => some (['\x7b', '\x7d'], .plain)
  | _ => none

/-- The bytes of characters in UTF-8. -/
def byteLength (cs : List Char) : Nat := (String.ofList cs).utf8ByteSize

/-- A short key: an empty collection or a scalar on one line, of at most 128 bytes with its tag.
Brackets and braces do not count. -/
def Value.isShortKey (tag : Option String) (v : Value) : Bool :=
  let tagBytes := (tag.map fun t => byteLength (Sheet.fullTag t)).getD 0
  match v with
  | .sequence [] | .mapping [] => tagBytes ≤ 128
  | _ =>
    match v.scalarForm? with
    | some (cs, _) => !(ScalarShape.of cs).hasBreak && tagBytes + byteLength cs ≤ 128
    | none => false

/-- The column of a collection inside of one at `indent`, if there is one. -/
def innerIndent (indent : Option Nat) : Nat := (indent.map (· + 2)).getD 0

mutual

/-- Writes a value with its tag inside of a collection at a column; `inMapping` tells whether that
is a mapping. -/
def Value.write (indent : Option Nat) (inMapping : Bool) (tag : Option String) :
    Value → Sheet → Sheet
  | .tagged t v, s => v.write indent inMapping (some t) s
  | .sequence (v :: vs), s =>
    let s := s.tag tag
    let column := if inMapping && !s.atStart then indent.getD 0 else innerIndent indent
    writeItems column (v :: vs) s
  | .mapping (e :: es), s => writeEntries (innerIndent indent) (e :: es) (s.tag tag)
  | v, s =>
    match v.scalarForm? with
    | some (cs, style) => (s.tag tag).scalar ((indent.getD 0) + 2) style cs
    | none => s

/-- Writes the items of a sequence at a column. -/
def writeItems (column : Nat) : List Value → Sheet → Sheet
  | [], s => s
  | v :: vs, s =>
    let s := (s.startLine column).indicator ['-'] true
    writeItems column vs (v.write (some column) false none s)

/-- Writes the entries of a mapping at a column. -/
def writeEntries (column : Nat) : List (Value × Value) → Sheet → Sheet
  | [], s => s
  | (k, v) :: es, s =>
    let s := s.startLine column
    let isShort := match k with
      | .tagged t k => k.isShortKey (some t)
      | k => k.isShortKey none
    let s :=
      if isShort then (k.write (some column) true none s).attached [':']
      else
        let s := k.write (some column) true none (s.indicator ['?'] true)
        (s.startLine column).indicator [':'] true
    writeEntries column es (v.write (some column) true none s)

end

/-- A value in block style, without white space at its end; a value that cannot be written is the
empty text. -/
def Value.blockText (v : Value) : String :=
  if v.isWritable false then String.ofList (Text.trimEnd (v.write none false none .empty).chars)
  else ""

end TreePath.Yaml
