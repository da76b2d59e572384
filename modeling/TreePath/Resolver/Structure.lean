import TreePath.Resolver.Basic
import TreePath.Text.Quoted

/-! # The structure of a resolver as text

Where `Resolver.text` writes a resolver as an expression, `Resolver.structureText` writes how it is
built: each kind of resolver by its name, with its parts in parentheses and names in quotes. -/

namespace TreePath

/-- A selector by its kind. -/
def Selector.structureText : Selector → String
  | wildcard => "Wildcard"
  | position i => "Position(" ++ Nat.repr i.toNat ++ ")"

/-- A resolver by its kinds. -/
def Resolver.structureText : Resolver → String
  | identity => "Identity"
  | byName n => "NameMatch(" ++ Text.quoted n ++ ")"
  | byIndex i => "IndexMatch(" ++ i.structureText ++ ")"
  | composite outer inner =>
    "Composite(" ++ outer.structureText ++ ", " ++ inner.structureText ++ ")"
  | strict inner => "Strict(" ++ inner.structureText ++ ")"

end TreePath
