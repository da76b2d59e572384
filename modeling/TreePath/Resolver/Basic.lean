import TreePath.Expression.Basic
import TreePath.Resolver.Predicate

/-! # Resolvers

A resolver takes a node to a list of nodes below it. It is built from five kinds of resolver:
staying at the node, going to the children that pass a name or a selector, running one resolver
after the other, and the strict form of a resolver, which fails where the plain one selects nothing.

* `Resolver.compile` makes the resolver of an expression, and `Resolver.text` writes a resolver as
  an expression.
* `Resolver.predicates` lists the predicates that a resolver asks of the nodes on the way.
* `Resolver.resolve` runs a resolver: results of a composite are in the order of the outer results,
  and under each of these in the order of the inner ones. -/

namespace TreePath

/-- A way from a node to nodes below it. -/
inductive Resolver where
  /-- Stays at the node. -/
  | identity
  /-- Goes to the children with a name. -/
  | byName (name : String)
  /-- Goes to the children at a position. -/
  | byIndex (selector : Selector)
  /-- Runs `inner` on each result of `outer`. -/
  | composite (outer inner : Resolver)
  /-- Fails where `inner` selects nothing. -/
  | strict (inner : Resolver)
  deriving DecidableEq, Repr, Inhabited

/-- A strict resolver selected nothing; the text is that of the resolver. -/
structure NoMatch where
  expression : String
  deriving DecidableEq, Repr

def NoMatch.message (e : NoMatch) : String :=
  "No matching results for expression '" ++ e.expression ++ "'"

namespace Resolver

/-! ### From expressions -/

/-- A name, or staying in place for `$`, and then the selectors in turn. -/
def compileSegment (s : Segment) : Resolver :=
  s.indices.foldl (fun r i => composite r (byIndex i))
    (if s.isSelf then identity else byName s.name)

/-- The segments in turn; the empty expression stays in place. -/
def compile (e : Expression) : Resolver :=
  match e.segments with
  | [] => identity
  | s :: rest => rest.foldl (fun r t => composite r (compileSegment t)) (compileSegment s)

/-! ### Strictness -/

def isStrict : Resolver → Bool
  | strict _ => true
  | _ => false

/-- The strict form; a strict resolver is left as it is. -/
def toStrict (r : Resolver) : Resolver := if r.isStrict then r else strict r

/-! ### Text -/

/-- A resolver as an expression: brackets follow what they belong to, other steps follow a dot. -/
def text : Resolver → String
  | identity => selfName
  | byName n => n
  | byIndex i => "[" ++ i.text ++ "]"
  | composite outer (byIndex i) => outer.text ++ "[" ++ i.text ++ "]"
  | composite outer inner => outer.text ++ "." ++ inner.text
  | strict inner => inner.text

/-! ### Running -/

/-- The predicates on the way, from the top. -/
def predicates : Resolver → List Predicate
  | identity => []
  | byName n => [.name n]
  | byIndex i => [.index i]
  | composite outer inner => outer.predicates ++ inner.predicates
  | strict inner => inner.predicates

/-- The children that pass a predicate, in order. -/
def childrenPassing (q : Predicate) (p : Place) : List Place :=
  p.children.filter fun c => q.test c.node

/-- Runs `f` on each place and joins the results in order; the first failure ends it. -/
def collect (f : Place → Except NoMatch (List Place)) : List Place → Except NoMatch (List Place)
  | [] => .ok []
  | p :: ps =>
    match f p with
    | .error e => .error e
    | .ok here =>
      match collect f ps with
      | .error e => .error e
      | .ok rest => .ok (here ++ rest)

/-- The places that a resolver selects below a place. -/
def resolve : Resolver → Place → Except NoMatch (List Place)
  | identity, p => .ok [p]
  | byName n, p => .ok (childrenPassing (.name n) p)
  | byIndex i, p => .ok (childrenPassing (.index i) p)
  | composite outer inner, p =>
    match outer.resolve p with
    | .error e => .error e
    | .ok found => collect (fun q => inner.resolve q) found
  | strict inner, p =>
    match inner.resolve p with
    | .error e => .error e
    | .ok [] => .error ⟨inner.text⟩
    | .ok found => .ok found

end Resolver

end TreePath
