import TreePath.Expression.Selector

/-! # Keys of properties

A property is a field, with a type and perhaps a name, or a value of a map, with the type of the
values, the property that is the map, and a sequence number among its values. Any property may carry
annotations. Keys are compared up to sequence numbers, so that all values of a map share what is
stored under their key.

* `PropertyKey.same`: the comparison of keys.
* `PropertyKey.identity`: the key with every sequence number erased, what a store is indexed with.
* `PropertyKey.digest`: the data that a hash of the key is made from. -/

namespace TreePath

/-- A property of a type. -/
inductive PropertyKey where
  | field (typeName : String) (name : Option String) (annotations : List String)
  | mapValue (typeName : String) (annotations : List String) (map : PropertyKey)
    (sequence : UInt64)
  deriving DecidableEq, Repr, Inhabited

namespace PropertyKey

/-! ### Parts -/

/-- A field with a name. -/
def named (typeName name : String) : PropertyKey := field typeName (some name) []

/-- A field without a name. -/
def unnamed (typeName : String) : PropertyKey := field typeName none []

/-- A value of a map. -/
def ofMap (map : PropertyKey) (typeName : String) (sequence : UInt64) : PropertyKey :=
  mapValue typeName [] map sequence

/-- The property with one more annotation, after those it has. -/
def withAnnotation : PropertyKey → String → PropertyKey
  | field t n as, a => field t n (as ++ [a])
  | mapValue t as m i, a => mapValue t (as ++ [a]) m i

def typeName : PropertyKey → String
  | field t _ _ => t
  | mapValue t _ _ _ => t

/-- The name; values of maps have none. -/
def name : PropertyKey → Option String
  | field _ n _ => n
  | mapValue _ _ _ _ => none

def annotations : PropertyKey → List String
  | field _ _ as => as
  | mapValue _ as _ _ => as

/-- The map that a value belongs to. -/
def map? : PropertyKey → Option PropertyKey
  | field _ _ _ => none
  | mapValue _ _ m _ => some m

/-- The sequence number of a value of a map. -/
def sequence? : PropertyKey → Option UInt64
  | field _ _ _ => none
  | mapValue _ _ _ i => some i

/-! ### Comparison -/

/-- The keys agree in everything but sequence numbers. -/
def same : PropertyKey → PropertyKey → Bool
  | field t n as, field t' n' as' => t == t' && n == n' && as == as'
  | mapValue t as m _, mapValue t' as' m' _ => t == t' && as == as' && same m m'
  | _, _ => false

/-- Both are fields, or both are values of maps that agree. -/
def sameKind : PropertyKey → PropertyKey → Bool
  | field _ _ _, field _ _ _ => true
  | mapValue _ _ m _, mapValue _ _ m' _ => same m m'
  | _, _ => false

/-- The key with every sequence number set to zero. -/
def identity : PropertyKey → PropertyKey
  | field t n as => field t n as
  | mapValue t as m _ => mapValue t as m.identity 0

/-- A datum that a hash is fed with. -/
inductive Datum where
  | text (s : String)
  | tag (n : UInt8)
  | count (n : Nat)
  deriving DecidableEq, Repr

/-- The data of a list of texts: their number, and then each. -/
def textsDigest (ts : List String) : List Datum := .count ts.length :: ts.map .text

/-- The data that a hash is fed with: type, name, annotations, and then the kind. -/
def digest : PropertyKey → List Datum
  | field t none as => .text t :: .tag 0 :: textsDigest as ++ [.tag 0]
  | field t (some n) as => .text t :: .tag 1 :: .text n :: textsDigest as ++ [.tag 0]
  | mapValue t as m _ => .text t :: .tag 0 :: textsDigest as ++ .tag 1 :: m.digest

/-! ### Text -/

/-- Annotations as they stand in front of a property. -/
def annotationsText : List String → String
  | [] => ""
  | a :: as => "@" ++ a ++ " " ++ annotationsText as

/-- The annotations, the address if there is one, and the type. -/
def text : PropertyKey → String
  | field t (some n) as => annotationsText as ++ n ++ ": " ++ t
  | field t none as => annotationsText as ++ t
  | mapValue t as m i =>
    annotationsText as ++ m.name.getD selfName ++ "[" ++ Nat.repr i.toNat ++ "]: " ++ t

end PropertyKey

/-- The property at the root of a generation. -/
structure RootKey where
  property : PropertyKey
  deriving DecidableEq, Repr, Inhabited

namespace RootKey

/-- The root of a type. -/
def ofType (typeName : String) : RootKey := ⟨.unnamed typeName⟩

def withAnnotation (k : RootKey) (a : String) : RootKey := ⟨k.property.withAnnotation a⟩

/-- The root properties agree in everything but sequence numbers. -/
def same (a b : RootKey) : Bool := a.property.same b.property

/-- The root key with every sequence number set to zero. -/
def identity (k : RootKey) : RootKey := ⟨k.property.identity⟩

def text (k : RootKey) : String := selfName ++ ": " ++ k.property.text

end RootKey

end TreePath
