import TreePath.Tree.Node
import TreePath.Yaml.Value.Block
import TreePath.Yaml.Value.Compose

/-! # Documents as trees

The tree of a YAML value: an entry of a mapping is a child with the text of its key as name, an item
of a sequence a child at its position, and a scalar a node with its text as value. Tags are
transparent. The root has neither name nor position.

* `scalarText`: the text of a scalar, and of any other value its block style.
* `Node.ofValue`: the tree of a value.
* `Node.ofYaml?`: the tree of a text. -/

namespace TreePath

open Yaml (Value)

/-- The text of a scalar; any other value is written in block style. -/
def scalarText : Value → String
  | .null => "null"
  | .bool b => if b then "true" else "false"
  | .number n => n.text
  | .string s => s
  | v => v.blockText

namespace Node

mutual

/-- The tree of a value, without name and position. -/
def ofValue : Value → Node
  | .mapping entries => ⟨none, none, none, ofEntries entries⟩
  | .sequence items => ⟨none, none, none, ofItems 0 items⟩
  | .tagged _ v => ofValue v
  | v => ⟨none, none, some (scalarText v), []⟩

/-- The children of a mapping. -/
def ofEntries : List (Value × Value) → List Node
  | [] => []
  | (k, v) :: rest => (ofValue v).withName (scalarText k) :: ofEntries rest

/-- The children of a sequence, the first at position `i`. -/
def ofItems (i : Nat) : List Value → List Node
  | [] => []
  | v :: rest => (ofValue v).withPosition (UInt64.ofNat i) :: ofItems (i + 1) rest

end

/-- The tree of a YAML text. -/
def ofYaml? (text : String) : Option Node := (Value.parse? text).map ofValue

end Node

end TreePath
