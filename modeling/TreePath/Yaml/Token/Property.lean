import TreePath.Text.Digits
import TreePath.Yaml.Token.Basic

/-! # Anchors, tags and directives

Words that start with an indicator: `&` and `*` name and recall a node, `!` gives it a tag, and `%`
at the start of a line is a directive. The rest of a tag may hold escapes, each `%` with two
hexadecimal digits for a byte of UTF-8.

* `readAnchor`, `readTag`, `readDirective`: the word whose indicator is at the cursor. -/

namespace TreePath.Yaml

/-- Reads the name behind `&` or `*`. -/
def readAnchor (c : Cursor) : Option (String × Cursor) :=
  let (name, c) := (c.skip 1).span isWordChar
  let endsHere := endsWord c.rest ||
    c.rest.head?.any fun x => x ∈ ['?', ':', ',', ']', '}', '%', '@', '\x60']
  if name.isEmpty || !endsHere then none else some (String.ofList name, c)

/-! ### Tags -/

/-- A character of a tag that stands for itself. Outside of angle brackets a tag holds no character
that structures flow collections. -/
def isUriChar (inBrackets : Bool) (c : Char) : Bool :=
  isWordChar c ||
    c ∈ [';', '/', '?', ':', '@', '&', '=', '+', '$', '.', '!', '~', '*', '\x27', '(', ')'] ||
    (inBrackets && c ∈ [',', '[', ']'])

/-- How many bytes follow the first byte of a character in UTF-8. -/
def followers? (byte : Nat) : Option Nat :=
  if byte < 0x80 then some 0
  else if byte / 0x20 = 0x6 then some 1
  else if byte / 0x10 = 0xE then some 2
  else if byte / 0x8 = 0x1E then some 3
  else none

/-- Reads on with the bytes so far, the last first; `left` bytes of a character are missing, and
have to be escaped. -/
def readUriFrom (inBrackets : Bool) (m : Mark) (bytes : TagText) (left : Nat) :
    List Char → Option (TagText × Cursor)
  | [] => if left = 0 then some (bytes.reverse, ⟨m, []⟩) else none
  | c :: cs =>
    if c = '%' then
      match cs with
      | a :: b :: cs =>
        match Text.hexDigit? a, Text.hexDigit? b with
        | some x, some y =>
          let byte := 16 * x + y
          let left? := if left = 0 then followers? byte
            else if byte / 0x40 = 0x2 then some (left - 1) else none
          match left? with
          | some left =>
            readUriFrom inBrackets (m.afterAll [c, a, b]) (UInt8.ofNat byte :: bytes) left cs
          | none => none
        | _, _ => none
      | _ => none
    else if left ≠ 0 then none
    else if isUriChar inBrackets c then
      readUriFrom inBrackets (m.after c) (UInt8.ofNat c.toNat :: bytes) 0 cs
    else some (bytes.reverse, ⟨m, c :: cs⟩)

/-- Reads characters and escapes of a tag. A zero byte ends what counts of them. -/
def readUri (inBrackets : Bool) (c : Cursor) : Option (TagText × Cursor) :=
  readUriFrom inBrackets c.mark [] 0 c.rest

/-- A tag text up to its first zero byte. -/
def cutAtZero (bytes : TagText) : TagText := bytes.takeWhile (· != 0)

/-- Reads the tag behind `!`: in full between angle brackets, behind a handle of its own, or behind
the handle `!`. A lone `!` is a tag in full. -/
def readTagText (c : Cursor) : Option ((String × TagText) × Cursor) :=
  if (c.rest.drop 1).head? = some '<' then
    match readUri true (c.skip 2) with
    | some (bytes, c) =>
      if bytes.isEmpty || c.rest.head? != some '>' then none
      else some (("", cutAtZero bytes), c.skip 1)
    | none => none
  else
    let (word, c) := (c.skip 1).span isWordChar
    if c.rest.head? = some '!' then
      match readUri false (c.skip 1) with
      | some (bytes, c) =>
        if bytes.isEmpty then none
        else some (("!" ++ String.ofList word ++ "!", cutAtZero bytes), c)
      | none => none
    else
      match readUri false c with
      | some (bytes, c) =>
        let bytes := cutAtZero (word.map (fun x => UInt8.ofNat x.toNat) ++ bytes)
        some (if bytes.isEmpty then ("", "!".toUTF8.toList) else ("!", bytes), c)
      | none => none

/-- Reads the tag behind `!`, which ends with a blank or a line, or in a flow collection with a
comma. -/
def readTag (inFlow : Bool) (c : Cursor) : Option (Token × Cursor) := do
  let ((handle, bytes), c) ← readTagText c
  if endsWord c.rest || (inFlow && c.rest.head? == some ',') then
    return (.tag handle bytes, c)
  else none

/-! ### Directives -/

/-- Reads a number of at most nine digits. -/
def readVersionNumber (c : Cursor) : Option (Nat × Cursor) :=
  let (digits, c) := c.span Char.isDigit
  if digits.isEmpty || digits.length > 9 then none
  else some (Text.digitsValue 10 digits, c)

/-- Reads the numbers of a version with a point between them. -/
def readVersion (c : Cursor) : Option (Token × Cursor) := do
  let (major, c) ← readVersionNumber c.skipBlanks
  if c.rest.head? = some '.' then
    let (minor, c) ← readVersionNumber (c.skip 1)
    return (.version major minor, c)
  else none

/-- Reads a handle and the start of tags that it stands for. -/
def readTagHandle (c : Cursor) : Option (Token × Cursor) := do
  let c := c.skipBlanks
  if c.rest.head? != some '!' then none
  let (word, c) := (c.skip 1).span isWordChar
  let (handle, c) ←
    if c.rest.head? = some '!' then some ("!" ++ String.ofList word ++ "!", c.skip 1)
    else if word.isEmpty then some ("!", c)
    else none
  if !c.rest.head?.any isBlank then none
  let (bytes, c) ← readUri true c.skipBlanks
  if bytes.isEmpty || !endsWord c.rest then none
  return (.tagHandle handle (cutAtZero bytes), c)

/-- Reads the directive whose `%` is at the cursor, and the rest of its line. -/
def readDirective (c : Cursor) : Option (Token × Cursor) := do
  let (name, c) := (c.skip 1).span isWordChar
  if !endsWord c.rest then none
  let (token, c) ←
    if name = "YAML".toList then readVersion c
    else if name = "TAG".toList then readTagHandle c
    else none
  let c ← c.endLine?
  return (token, c)

end TreePath.Yaml
