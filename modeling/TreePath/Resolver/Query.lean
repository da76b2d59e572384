import TreePath.Expression.Parser
import TreePath.Resolver.Basic

/-! # Queries

A query is the text of an expression, run from the root of a tree, strictly or not. It fails if the
text is no expression, whatever the tree, or if it is strict and selects nothing. -/

namespace TreePath

/-- Why a query has no answer. -/
inductive QueryError where
  | invalid (error : InvalidExpression)
  | noMatch (error : NoMatch)
  deriving DecidableEq, Repr

def QueryError.message : QueryError → String
  | invalid e => e.message
  | noMatch e => e.message

/-- The resolver of an expression, in its strict form if asked for. -/
def Resolver.ofExpression (e : Expression) (isStrict : Bool) : Resolver :=
  if isStrict then (compile e).toStrict else compile e

/-- The places that the text selects from the root. -/
def query (root : Node) (text : String) (isStrict : Bool) : Except QueryError (List Place) :=
  match Expression.parse text with
  | .error e => .error (.invalid e)
  | .ok e =>
    match (Resolver.ofExpression e isStrict).resolve (.root root) with
    | .error e => .error (.noMatch e)
    | .ok found => .ok found

end TreePath
