import TreePath.Decimal.Shortest

/-! # YAML values

What a YAML document stands for: scalars, sequences, mappings and tagged values. Numbers are
integers of 64 bits, with or without sign, or doubles. A mapping keeps the order of its entries.

* `Value.same`: equality of values. Mappings are equal whatever the order of their entries, and
  doubles by value, with one not-a-number equal to itself.
* `Number.text`: a number in the shortest form that reads back. -/

namespace TreePath.Yaml

/-- A number. -/
inductive Number where
  | integer (value : Int)
  | float (value : Float)
  deriving Repr, Inhabited

/-- A value. -/
inductive Value where
  | null
  | bool (value : Bool)
  | number (value : Number)
  | string (value : String)
  | sequence (items : List Value)
  | mapping (entries : List (Value × Value))
  /-- A value with a tag of the document; the tag is without the `!` in front. -/
  | tagged (tag : String) (value : Value)
  deriving Repr, Inhabited

/-! ### Equality -/

/-- Integers by value, doubles by value, and never one of each. -/
def Number.same : Number → Number → Bool
  | .integer a, .integer b => a == b
  | .float a, .float b => a == b || (a.isNaN && b.isNaN)
  | _, _ => false

/-- A tag without `!` in front, unless there is nothing else to it. -/
def bareTag (tag : String) : String :=
  match tag.toList with
  | '!' :: c :: cs => String.ofList (c :: cs)
  | cs => String.ofList cs

mutual

/-- Equality of values. -/
def Value.same : Value → Value → Bool
  | .null, .null => true
  | .bool a, .bool b => a == b
  | .number a, .number b => a.same b
  | .string a, .string b => a == b
  | .sequence a, .sequence b => sameItems a b
  | .mapping a, .mapping b => a.length == b.length && holdsEntries a b
  | .tagged s a, .tagged t b => bareTag s == bareTag t && a.same b
  | _, _ => false

/-- Equally many items that are equal pairwise. -/
def sameItems : List Value → List Value → Bool
  | [], [] => true
  | a :: as, b :: bs => a.same b && sameItems as bs
  | _, _ => false

/-- Every entry of the second list is in the first. -/
def holdsEntries (entries : List (Value × Value)) : List (Value × Value) → Bool
  | [] => true
  | (k, v) :: rest =>
    (entries.any fun e => e.1.same k && e.2.same v) && holdsEntries entries rest

end

/-! ### Numbers as text -/

/-- An integer in decimal, with a sign if it is negative. -/
def integerText (i : Int) : String :=
  if i < 0 then "-" ++ Nat.repr i.natAbs else Nat.repr i.natAbs

/-- Digits with a point before the last `places` of them. -/
def pointed (digits : List Char) (places : Nat) : List Char :=
  let whole := digits.length - places
  digits.take whole ++ '.' :: digits.drop whole

/-- The text of a decimal. Up to sixteen digits stand before the point, up to four zeros behind it
before the first digit, and beyond this there is an exponent. -/
def decimalText (d : Decimal.Scaled) : List Char :=
  let digits := Nat.toDigits 10 d.digits
  let size : Int := digits.length + d.exponent
  if 0 ≤ d.exponent && size ≤ 16 then
    digits ++ List.replicate d.exponent.toNat '0' ++ ['.', '0']
  else if 0 < size && size ≤ 16 then pointed digits (-d.exponent).toNat
  else if -5 < size && size ≤ 0 then
    '0' :: '.' :: (List.replicate (-size).toNat '0' ++ digits)
  else
    let mantissa := if digits.length = 1 then digits else pointed digits (digits.length - 1)
    mantissa ++ 'e' :: (integerText (size - 1)).toList

/-- The text of a double. -/
def floatText (x : Float) : String :=
  if x.isNaN then ".nan"
  else
    let sign := if Decimal.isNegative x then "-" else ""
    let b := Decimal.Binary64.ofFloat x
    if x.isInf then sign ++ ".inf"
    else if b.significand = 0 then sign ++ "0.0"
    else sign ++ String.ofList (decimalText (Decimal.shortest b))

/-- The text of a number. -/
def Number.text : Number → String
  | .integer i => integerText i
  | .float x => floatText x

end TreePath.Yaml
