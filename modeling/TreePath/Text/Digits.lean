/-! # Digits

Digits of a base up to 16, in either case, and the numbers they denote.

* `digitsValue` and `readDigits`: the number of a list of digits.
* `charOfCode?`: the character of a code point. -/

namespace TreePath.Text

/-- The value of a digit of base 16. -/
def hexDigit? (c : Char) : Option Nat :=
  if c.isDigit then some (c.toNat - '0'.toNat)
  else if 'a' ≤ c && c ≤ 'f' then some (c.toNat - 'a'.toNat + 10)
  else if 'A' ≤ c && c ≤ 'F' then some (c.toNat - 'A'.toNat + 10)
  else none

/-- Whether a character is a digit of a base up to 16. -/
def isDigitOf (base : Nat) (c : Char) : Bool := (hexDigit? c).any (· < base)

/-- The number that digits denote, the highest first. -/
def digitsValue (base : Nat) (cs : List Char) : Nat :=
  cs.foldl (fun n c => base * n + (hexDigit? c).getD 0) 0

/-- The number that digits of a base denote; there has to be a digit, and nothing else. -/
def readDigits (base : Nat) (cs : List Char) : Option Nat :=
  if !cs.isEmpty && cs.all (isDigitOf base) then some (digitsValue base cs) else none

/-- The character of a code point, unless it is a surrogate or too large. -/
def charOfCode? (n : Nat) : Option Char := if n.isValidChar then some (Char.ofNat n) else none

end TreePath.Text
