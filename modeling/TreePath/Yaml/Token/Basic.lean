import TreePath.Yaml.Chars

/-! # Tokens of YAML text

The tokens stand for the punctuation of the text and for its layout: a change of indentation opens
or closes a block collection, and a key of a mapping is marked even where nothing is written in
front of it. -/

namespace TreePath.Yaml

/-- A tag in bytes of UTF-8; its escapes can spell any bytes. -/
abbrev TagText := List UInt8

/-- A token. -/
inductive Token where
  /-- The directive that names the version. -/
  | version (major minor : Nat)
  /-- The directive that names a handle for the start of tags. -/
  | tagHandle (handle : String) (start : TagText)
  | documentStart
  | documentEnd
  | blockSequenceStart
  | blockMappingStart
  | blockEnd
  | flowSequenceStart
  | flowSequenceEnd
  | flowMappingStart
  | flowMappingEnd
  /-- The dash of an item. -/
  | item
  /-- The comma between entries. -/
  | comma
  | key
  | value
  | reference (name : String)
  | anchor (name : String)
  /-- A tag: a handle, empty if the tag is written in full, and the rest. -/
  | tag (handle : String) (rest : TagText)
  /-- A scalar, and whether it is written plain. -/
  | scalar (text : String) (isPlain : Bool)
  | streamEnd
  deriving DecidableEq, Repr, Inhabited

end TreePath.Yaml
