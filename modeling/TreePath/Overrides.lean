import TreePath.Expression.Order
import TreePath.Resolver.Query

/-! # Overrides

An override is an expression with a constraint for the nodes that it selects. A set of overrides
keeps them as they were supplied and applies them in canonical order, so that those of containers
come before those of the nodes in them. A strict set fails if an override of it selects nothing. -/

namespace TreePath

/-- An expression and what it demands. -/
structure Override (α : Type) where
  expression : Expression
  constraint : α
  deriving DecidableEq, Repr

/-- Overrides in the order of their supply. -/
structure OverrideSet (α : Type) where
  entries : List (Override α)
  isStrict : Bool
  deriving DecidableEq, Repr

/-- An override with the places that it selects. -/
structure ResolvedOverride (α : Type) where
  override : Override α
  places : List Place

namespace OverrideSet

variable {α : Type}

/-- The lenient set without overrides. -/
def empty : OverrideSet α := ⟨[], false⟩

/-- The lenient set of a list of overrides. -/
def ofList (entries : List (Override α)) : OverrideSet α := ⟨entries, false⟩

/-- The set with one more override, after those it has. -/
def push (s : OverrideSet α) (o : Override α) : OverrideSet α := ⟨s.entries ++ [o], s.isStrict⟩

/-- The same overrides, strict or lenient. -/
def withStrict (s : OverrideSet α) (isStrict : Bool) : OverrideSet α := ⟨s.entries, isStrict⟩

def length (s : OverrideSet α) : Nat := s.entries.length

def isEmpty (s : OverrideSet α) : Bool := s.entries.isEmpty

/-- The overrides in canonical order; those that tie keep their order. -/
def ordered (s : OverrideSet α) : List (Override α) :=
  s.entries.mergeSort fun a b => (a.expression.canonical b.expression).isLE

/-- Resolves overrides in turn; the first failure ends it. -/
def resolveEach (isStrict : Bool) (root : Node) :
    List (Override α) → Except NoMatch (List (ResolvedOverride α))
  | [] => .ok []
  | o :: rest =>
    match (Resolver.ofExpression o.expression isStrict).resolve (.root root) with
    | .error e => .error e
    | .ok places => (resolveEach isStrict root rest).map (⟨o, places⟩ :: ·)

/-- The overrides in canonical order, each with the places that it selects. -/
def resolve (s : OverrideSet α) (root : Node) : Except NoMatch (List (ResolvedOverride α)) :=
  resolveEach s.isStrict root s.ordered

end OverrideSet

end TreePath
