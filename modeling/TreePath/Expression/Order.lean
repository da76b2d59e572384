import TreePath.Expression.Basic

/-! # The canonical order of expressions

Overrides are applied in the canonical order of their expressions: fewer segments first, then by
the first pair of segments that differ. Of two segments with one name, selectors are compared from
the left, the larger first, so that the wildcard comes after every position. Where this leaves a
tie, or the names differ, fewer selectors come first. Expressions with different names can tie, so
the order is a comparison and not a linear order on expressions. -/

namespace TreePath

/-- Compares selectors from the left, the larger first, as far as both lists go. -/
def descending : List Selector → List Selector → Ordering
  | a :: as, b :: bs => (b.order a).then (descending as bs)
  | _, _ => .eq

/-- Selectors decide between segments of one name, and then their number. -/
def Segment.canonical (a b : Segment) : Ordering :=
  (if a.name = b.name then descending a.indices b.indices else .eq).then
    (compare a.indices.length b.indices.length)

/-- The first pair of segments that differ decides, as far as both lists go. -/
def segmentsCanonical : List Segment → List Segment → Ordering
  | a :: as, b :: bs => (a.canonical b).then (segmentsCanonical as bs)
  | _, _ => .eq

namespace Expression

/-- Fewer segments come first, and then the segments decide. -/
def canonical (a b : Expression) : Ordering :=
  (compare a.length b.length).then (segmentsCanonical a.segments b.segments)

/-- The expressions in canonical order; expressions that tie keep their order. -/
def sortCanonical (es : List Expression) : List Expression :=
  es.mergeSort fun a b => (a.canonical b).isLE

end Expression

end TreePath
