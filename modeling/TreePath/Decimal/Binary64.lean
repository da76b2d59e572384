/-! # Doubles as fractions of powers of two

A finite double is `m · 2 ^ q` up to its sign, for a significand `m` below `2 ^ 53` and an exponent
`q` of at least `-1074`. All arithmetic here is on natural numbers and exact.

* `Binary64.ofFloat`: the parts of a finite double.
* `nearestFloat`: the double nearest to a fraction; a fraction half way between two doubles goes to
  that with the even significand, and one beyond the largest double to infinity. -/

namespace TreePath.Decimal

/-- A finite double without its sign. -/
structure Binary64 where
  significand : Nat
  exponent : Int
  deriving DecidableEq, Repr

/-- The parts of a double, which should be finite. -/
def Binary64.ofFloat (x : Float) : Binary64 :=
  let bits : Nat := x.toBits.toNat
  let fraction : Nat := bits % Nat.pow 2 52
  let field : Nat := bits / Nat.pow 2 52 % Nat.pow 2 11
  if field = 0 then ⟨fraction, -1074⟩ else ⟨Nat.pow 2 52 + fraction, (field : Int) - 1075⟩

/-- Whether the sign of a double is set. -/
def isNegative (x : Float) : Bool := x.toBits.toNat ≥ Nat.pow 2 63

/-- The quotient to the nearest integer, a half to the even one. -/
def roundQuotient (num den : Nat) : Nat :=
  let q := num / den
  let r := num % den
  if 2 * r > den || (2 * r = den && q % 2 = 1) then q + 1 else q

/-- The quotient divided by `2 ^ e`, as a fraction. -/
def scaled (num den : Nat) (e : Int) : Nat × Nat :=
  if 0 ≤ e then (num, den * Nat.pow 2 e.toNat) else (num * Nat.pow 2 (-e).toNat, den)

/-- The exponent of the last place of the double nearest to a positive fraction, so that the
fraction is below `2 ^ 53` places and, unless the exponent is the least one, at least `2 ^ 52` of
them. -/
def lastPlace (num den : Nat) : Int :=
  let e : Int := (num.log2 : Int) - den.log2 - 53
  let (n, d) := scaled num den e
  let e := if n < Nat.pow 2 53 * d then e else e + 1
  max e (-1074)

/-- The nonnegative double nearest to a fraction. -/
def nearestFloat (num den : Nat) : Float :=
  if num = 0 then 0
  else
    let e := lastPlace num den
    let (n, d) := scaled num den e
    let q := roundQuotient n d
    let bits := if q < Nat.pow 2 52 then q else ((e + 1075).toNat - 1) * Nat.pow 2 52 + q
    Float.ofBits (UInt64.ofNat (min bits (2047 * Nat.pow 2 52)))

/-- The nonnegative double nearest to a number of units in a place of tens. Numbers beyond any
double are told by their length, so that no power of ten is larger than needed. -/
def floatOfDecimal (digits : Nat) (exponent : Int) : Float :=
  let size : Int := (Nat.toDigits 10 digits).length + exponent
  if digits = 0 || size < -400 then 0
  else if size > 400 then Float.ofBits (UInt64.ofNat (2047 * Nat.pow 2 52))
  else if 0 ≤ exponent then nearestFloat (digits * Nat.pow 10 exponent.toNat) 1
  else nearestFloat digits (Nat.pow 10 (-exponent).toNat)

end TreePath.Decimal
