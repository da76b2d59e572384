import TreePath.Tree.Node

/-! # Predicates of a step

A step of a path goes from a node to those of its children that pass a predicate: a name or a
selector. A name is asked only of nodes that have a name, and a selector only of nodes that have a
position; every other node passes. -/

namespace TreePath

/-- What a child has to satisfy. -/
inductive Predicate where
  | name (name : String)
  | index (selector : Selector)
  deriving DecidableEq, Repr, Inhabited

namespace Predicate

/-- Whether a node passes. -/
def test : Predicate → Node → Bool
  | name n, node =>
    match node.name with
    | some m => namesOverlap n m
    | none => true
  | index s, node =>
    match node.position with
    | some i => s.selects i
    | none => true

def text : Predicate → String
  | name n => "name == " ++ n
  | index s => "index == " ++ s.text

end Predicate

end TreePath
