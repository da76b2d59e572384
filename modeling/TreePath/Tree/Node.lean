import TreePath.Expression.Selector

/-! # Trees of nodes

A node has a name if it is a field, a position if it is an element, a value if it is a leaf, and
children in order. All four parts are independent of each other, so a node may have any of them.

A `Place` is a node together with the way to it: the child indexes from the root. It tells nodes
apart that look alike. -/

namespace TreePath

/-- A node of a tree with its subtree. -/
structure Node where
  name : Option String
  position : Option UInt64
  value : Option String
  children : List Node
  deriving Repr, Inhabited, BEq

namespace Node

/-! ### Building nodes -/

/-- The node without parts. -/
def anonymous : Node := ⟨none, none, none, []⟩

/-- A field without value. -/
def object (name : String) : Node := ⟨some name, none, none, []⟩

/-- A field with a value. -/
def leaf (name value : String) : Node := ⟨some name, none, some value, []⟩

/-- An element of a sequence. -/
def element (position : UInt64) : Node := ⟨none, some position, none, []⟩

def withName (n : Node) (name : String) : Node := ⟨some name, n.position, n.value, n.children⟩

def withPosition (n : Node) (position : UInt64) : Node :=
  ⟨n.name, some position, n.value, n.children⟩

def withValue (n : Node) (value : String) : Node := ⟨n.name, n.position, some value, n.children⟩

/-- The node with one more child, after those it has. -/
def withChild (n : Node) (child : Node) : Node :=
  ⟨n.name, n.position, n.value, n.children ++ [child]⟩

/-! ### Showing nodes -/

/-- How a node is addressed by its parent: by name, by position or by both. -/
def label (n : Node) : String :=
  match n.name, n.position with
  | some name, some i => name ++ "[" ++ Nat.repr i.toNat ++ "]"
  | some name, none => name
  | none, some i => "[" ++ Nat.repr i.toNat ++ "]"
  | none, none => selfName

/-- The label, with the value or else the number of children. -/
def summary (n : Node) : String :=
  match n.value with
  | some value => n.label ++ " = " ++ value
  | none => n.label ++ " (" ++ Nat.repr n.children.length ++ " children)"

end Node

/-! ### Places -/

/-- A node and the child indexes that lead to it from the root. -/
structure Place where
  path : List Nat
  node : Node
  deriving Repr, Inhabited, BEq

namespace Place

/-- The root of a tree. -/
def root (n : Node) : Place := ⟨[], n⟩

/-- The places of nodes that are children number `i`, `i + 1`, … of the node at `path`. -/
def childrenFrom (path : List Nat) : Nat → List Node → List Place
  | _, [] => []
  | i, n :: ns => ⟨path ++ [i], n⟩ :: childrenFrom path (i + 1) ns

/-- The places of the children, in order. -/
def children (p : Place) : List Place := childrenFrom p.path 0 p.node.children

end Place

end TreePath
