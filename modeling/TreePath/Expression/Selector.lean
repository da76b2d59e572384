/-! # Index selectors and names

A bracket of a path holds a *selector*: a position, or the wildcard, which stands for every
position. Positions are 64-bit words. A name of a path is compared with the wildcard in mind too:
the name `*` stands for every name, on either side of the comparison.

Selectors are ordered with the wildcard below every position and positions by value. -/

namespace TreePath

/-- The text of the wildcard, as a name and between brackets. -/
def wildcardText : String := "*"

/-- The name that stays at the current node instead of going to a child. -/
def selfName : String := "$"

/-- Two names agree if they are equal or one of them is the wildcard. -/
def namesOverlap (a b : String) : Bool :=
  a == b || a == wildcardText || b == wildcardText

/-- What a bracket selects: every position or a single one. -/
inductive Selector where
  | wildcard
  | position (index : UInt64)
  deriving DecidableEq, Repr, Inhabited

namespace Selector

/-- The text between the brackets; positions are decimal without leading zeros. -/
def text : Selector → String
  | wildcard => wildcardText
  | position i => Nat.repr i.toNat

def isWildcard : Selector → Bool
  | wildcard => true
  | position _ => false

/-- Two selectors overlap if some position is selected by both. -/
def overlaps : Selector → Selector → Bool
  | position i, position j => i == j
  | _, _ => true

/-- Whether the element at position `i` is selected. -/
def selects : Selector → UInt64 → Bool
  | wildcard, _ => true
  | position j, i => j == i

/-- The wildcard comes first, then the positions by value. -/
def order : Selector → Selector → Ordering
  | wildcard, wildcard => .eq
  | wildcard, position _ => .lt
  | position _, wildcard => .gt
  | position i, position j => compare i.toNat j.toNat

end Selector

end TreePath
