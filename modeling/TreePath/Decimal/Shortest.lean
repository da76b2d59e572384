import TreePath.Decimal.Binary64

/-! # The shortest decimal of a double

Every real number in an interval around a double rounds to it: up to half way to its neighbours, the
ends included if its significand is even. Among the decimals in the interval those with the fewest
digits are the shortest, and of these the nearest to the double is taken, an even last digit if two
are equally near.

For a number of digits, only the two decimals next to the double come into question: if a decimal
with as many digits lies in the interval, so does one of them.

* `shortest`: the digits and the exponent of the shortest decimal of a positive double. -/

namespace TreePath.Decimal

/-- A decimal `digits · 10 ^ exponent`. -/
structure Scaled where
  digits : Nat
  exponent : Int
  deriving DecidableEq, Repr

/-- The interval that rounds to a double, with all ends over one denominator. -/
structure Rounding where
  low : Nat
  value : Nat
  high : Nat
  den : Nat
  closed : Bool

/-- The interval of a positive double. Below a power of two the doubles are closer. -/
def Rounding.of (b : Binary64) : Rounding :=
  let isPower := b.significand = Nat.pow 2 52 && b.exponent > -1074
  let low := if isPower then 4 * b.significand - 1 else 4 * b.significand - 2
  let value := 4 * b.significand
  let high := 4 * b.significand + 2
  let e := b.exponent - 2
  let up := if 0 ≤ e then Nat.pow 2 e.toNat else 1
  let den := if 0 ≤ e then 1 else Nat.pow 2 (-e).toNat
  ⟨low * up, value * up, high * up, den, b.significand % 2 = 0⟩

/-- Whether a decimal lies in the interval. -/
def Rounding.holds (r : Rounding) (d : Scaled) : Bool :=
  let up := if 0 ≤ d.exponent then Nat.pow 10 d.exponent.toNat else 1
  let num := d.digits * up * r.den
  let den := if 0 ≤ d.exponent then 1 else Nat.pow 10 (-d.exponent).toNat
  if r.closed then r.low * den ≤ num && num ≤ r.high * den
  else r.low * den < num && num < r.high * den

/-- The place of the first digit of a fraction that is not below `10 ^ -400`. -/
def leadingPlace (num den : Nat) : Int :=
  ((Nat.toDigits 10 (num * Nat.pow 10 400 / den)).length : Int) - 401

/-- The two decimals of `n` digits next to the value, the nearer first. -/
def Rounding.neighbours (r : Rounding) (n : Nat) : List Scaled :=
  let exponent := leadingPlace r.value r.den - n + 1
  let num := if 0 ≤ exponent then r.value else r.value * Nat.pow 10 (-exponent).toNat
  let den := if 0 ≤ exponent then r.den * Nat.pow 10 exponent.toNat else r.den
  let below := num / den
  let rest := num % den
  let d : Scaled := ⟨below, exponent⟩
  let u : Scaled := ⟨below + 1, exponent⟩
  if 2 * rest < den || (2 * rest = den && below % 2 = 0) then [d, u] else [u, d]

/-- The decimal without zeros at the end of its digits, of which there are at most `fuel`. -/
def Scaled.trim : Nat → Scaled → Scaled
  | 0, d => d
  | fuel + 1, d =>
    if d.digits ≠ 0 && d.digits % 10 = 0 then trim fuel ⟨d.digits / 10, d.exponent + 1⟩ else d

/-- The first number of digits, from `n` on, with a decimal in the interval. -/
def Rounding.search (r : Rounding) (n : Nat) : Nat → Option Scaled
  | 0 => none
  | fuel + 1 =>
    match (r.neighbours n).find? r.holds with
    | some d => some d
    | none => search r (n + 1) fuel

/-- The shortest decimal that rounds to a positive double. Seventeen digits are always enough. -/
def shortest (b : Binary64) : Scaled :=
  ((((Rounding.of b).search 1 17).getD ⟨0, 0⟩).trim 18)

end TreePath.Decimal
