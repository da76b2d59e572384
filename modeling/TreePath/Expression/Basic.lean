import TreePath.Expression.Selector

/-! # Path expressions

An expression is a list of segments, each a name with index selectors: `orders[0][*].id` has the
segments `orders` with the selectors `0` and `*`, and `id` with none. The empty expression has no
segments; it addresses the node it starts from and is the only one whose text is empty or that no
text denotes.

* `Expression.text` writes the segments with dots between them.
* `Expression.overlaps` tells whether two expressions of the same shape can select a common node.
* `Expression.weight` counts the steps of an expression: one for each name and each selector. -/

namespace TreePath

/-- A name and the selectors in the brackets that follow it. -/
structure Segment where
  name : String
  indices : List Selector
  deriving DecidableEq, Repr, Inhabited

namespace Segment

/-- The segment `$` stays at the current node. -/
def isSelf (s : Segment) : Bool := s.name == selfName

/-- Selectors as they are written, each in its own brackets. -/
def bracketsText : List Selector → String
  | [] => ""
  | i :: is => "[" ++ i.text ++ "]" ++ bracketsText is

def text (s : Segment) : String := s.name ++ bracketsText s.indices

/-- The names agree, there are equally many selectors, and they overlap pairwise. -/
def overlaps (a b : Segment) : Bool :=
  namesOverlap a.name b.name && a.indices.isEqv b.indices Selector.overlaps

/-- One step for the name and one for each selector. -/
def weight (s : Segment) : Nat := 1 + s.indices.length

end Segment

/-- A path from a node down to other nodes. -/
structure Expression where
  segments : List Segment
  deriving DecidableEq, Repr, Inhabited

namespace Expression

/-- The expression without segments. -/
def empty : Expression := ⟨[]⟩

def isEmpty (e : Expression) : Bool := e.segments.isEmpty

/-- The number of segments. -/
def length (e : Expression) : Nat := e.segments.length

/-- Segments as they are written, with a dot between neighbours. -/
def segmentsText : List Segment → String
  | [] => ""
  | [s] => s.text
  | s :: t :: rest => s.text ++ "." ++ segmentsText (t :: rest)

def text (e : Expression) : String := segmentsText e.segments

/-- Equally many segments that overlap pairwise. -/
def overlaps (a b : Expression) : Bool := a.segments.isEqv b.segments Segment.overlaps

/-- The number of steps: names and selectors. -/
def weight (e : Expression) : Nat := e.segments.foldr (fun s n => s.weight + n) 0

end Expression

end TreePath
