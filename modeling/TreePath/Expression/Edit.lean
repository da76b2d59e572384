import TreePath.Expression.Parser

/-! # Growing and shrinking expressions

An expression grows at either end by text: `addFirst` and `addLast` read the joined text anew, so
that whatever is added obeys the grammar. It shrinks by one step at its end: `pollLast` drops the
last selector of the last segment, or the whole segment if it has none. The empty expression grows
by just the added text, and stays empty when shrunk. -/

namespace TreePath.Expression

/-- The expression with `text` in front, read anew. -/
def addFirst (e : Expression) (text : String) : Except InvalidExpression Expression :=
  if e.isEmpty then parse text else parse (text ++ "." ++ e.text)

/-- The expression with `text` at its end, read anew. -/
def addLast (e : Expression) (text : String) : Except InvalidExpression Expression :=
  if e.isEmpty then parse text else parse (e.text ++ "." ++ text)

/-- Segments without their last step. -/
def dropLastStep : List Segment → List Segment
  | [] => []
  | [s] => if s.indices = [] then [] else [⟨s.name, s.indices.dropLast⟩]
  | s :: t :: rest => s :: dropLastStep (t :: rest)

/-- The expression one step back: `items[0][1]` becomes `items[0]`, and `order.items` becomes
`order`. -/
def pollLast (e : Expression) : Expression := ⟨dropLastStep e.segments⟩

end TreePath.Expression
