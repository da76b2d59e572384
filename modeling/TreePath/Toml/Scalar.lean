import TreePath.Decimal.Binary64
import TreePath.Text.Digits
import TreePath.Toml.Value

/-! # Numbers, truth values and dates in TOML

A value that is neither quoted nor bracketed is a word: `true`, `false`, an integer of 64 bits, a
float, a date or a time. Digits may be grouped by single underscores between them. A date and a time
may stand apart, with a space between them.

* `readWord`: the value of a word.
* `isDate` and `isOffsetTime`: the two parts of a date and a time that stand apart. -/

namespace TreePath.Toml

/-- A character of a word. -/
def isWordChar (c : Char) : Bool :=
  c.isAlphanum || c == '+' || c == '-' || c == '_' || c == '.' || c == ':'

/-! ### Numbers -/

/-- Digits of a base, with single underscores between some of them; gives the digits. -/
def ungroup? (base : Nat) : List Char → Option (List Char)
  | [] => none
  | [c] => if Text.isDigitOf base c then some [c] else none
  | c :: '_' :: cs =>
    if Text.isDigitOf base c then (ungroup? base cs).map (c :: ·) else none
  | c :: cs => if Text.isDigitOf base c then (ungroup? base cs).map (c :: ·) else none

/-- Digits without a superfluous zero in front. -/
def isCanonical (digits : List Char) : Bool := digits.length ≤ 1 || digits.head? != some '0'

/-- A sign, and what follows it. -/
def readSign : List Char → Bool × List Char
  | '-' :: cs => (true, cs)
  | '+' :: cs => (false, cs)
  | cs => (false, cs)

/-- One more than the largest integer, of 64 bits with a sign. -/
def integerBound : Nat := 0x8000000000000000

/-- An integer of 64 bits in a base other than ten, or of ten with a sign. -/
def readInteger (word : List Char) : Option Int :=
  match word with
  | '0' :: 'x' :: cs => unsigned 16 cs
  | '0' :: 'o' :: cs => unsigned 8 cs
  | '0' :: 'b' :: cs => unsigned 2 cs
  | word =>
    let (isNegative, cs) := readSign word
    (ungroup? 10 cs).bind fun digits =>
      let n := Text.digitsValue 10 digits
      if !isCanonical digits then none
      else if isNegative then if n ≤ integerBound then some (-(n : Int)) else none
      else if n < integerBound then some n else none
where
  /-- Digits of a base without sign. -/
  unsigned (base : Nat) (cs : List Char) : Option Int :=
    (ungroup? base cs).bind fun digits =>
      let n := Text.digitsValue base digits
      if n < integerBound then some n else none

/-- The digits behind a point, which is not there without them. -/
def readFraction (cs : List Char) : Option (List Char) :=
  match cs with
  | [] => some []
  | '.' :: cs => ungroup? 10 cs
  | _ => none

/-- The number behind the letter of an exponent, which is not there without it. -/
def readExponent (cs : List Char) : Option Int :=
  match cs with
  | [] => some 0
  | _ :: cs =>
    let (isNegative, cs) := readSign cs
    (ungroup? 10 cs).map fun digits =>
      let n : Int := Text.digitsValue 10 digits
      if isNegative then -n else n

/-- A float: a fraction, an exponent or both behind the digits, or one of two names. A number beyond
all floats is refused, unless it is negative. -/
def readFloat (word : List Char) : Option Float :=
  let (isNegative, cs) := readSign word
  let signed (x : Float) : Float := if isNegative then -x else x
  if cs = "inf".toList then some (signed (1.0 / 0.0))
  else if cs = "nan".toList then some (signed (0.0 / 0.0))
  else
    let isPart (c : Char) : Bool := c != 'e' && c != 'E'
    let mantissa := cs.takeWhile isPart
    let whole := mantissa.takeWhile (· != '.')
    let hasMore := whole.length < cs.length
    match ungroup? 10 whole, readFraction (mantissa.drop whole.length),
      readExponent (cs.drop mantissa.length) with
    | some whole, some fraction, some e =>
      let digits := Text.digitsValue 10 (whole ++ fraction)
      let x := Decimal.floatOfDecimal digits (e - fraction.length)
      if !isCanonical whole || !hasMore || (x.isInf && !isNegative) then none
      else some (signed x)
    | _, _, _ => none

/-! ### Dates and times -/

/-- A number of exactly `n` digits between two bounds, and what follows it. -/
def readField (n low high : Nat) (cs : List Char) : Option (Nat × List Char) :=
  let digits := cs.take n
  if digits.length = n && digits.all Char.isDigit then
    let value := Text.digitsValue 10 digits
    if low ≤ value && value ≤ high then some (value, cs.drop n) else none
  else none

/-- What follows a character, if it is there. -/
def readMark (c : Char) : List Char → Option (List Char)
  | [] => none
  | x :: cs => if x = c then some cs else none

/-- The days of a month. -/
def daysOfMonth (year month : Nat) : Nat :=
  if month = 2 then
    if year % 4 = 0 && (year % 100 ≠ 0 || year % 400 = 0) then 29 else 28
  else if month = 4 || month = 6 || month = 9 || month = 11 then 30
  else 31

/-- What follows a date. -/
def readDate (cs : List Char) : Option (List Char) := do
  let (year, cs) ← readField 4 0 9999 cs
  let (month, cs) ← readField 2 1 12 (← readMark '-' cs)
  let (_, cs) ← readField 2 1 (daysOfMonth year month) (← readMark '-' cs)
  return cs

/-- What follows a time, a second of which may be a leap second. -/
def readTime (cs : List Char) : Option (List Char) := do
  let (_, cs) ← readField 2 0 23 cs
  let (_, cs) ← readField 2 0 59 (← readMark ':' cs)
  let (_, cs) ← readField 2 0 60 (← readMark ':' cs)
  match cs with
  | '.' :: cs =>
    let digits := cs.takeWhile Char.isDigit
    if digits.isEmpty then none else return cs.drop digits.length
  | cs => return cs

/-- What follows the offset of a time. -/
def readOffset (cs : List Char) : Option (List Char) :=
  match cs with
  | 'Z' :: cs | 'z' :: cs => some cs
  | '+' :: cs | '-' :: cs => do
    let (_, cs) ← readField 2 0 23 cs
    let (_, cs) ← readField 2 0 59 (← readMark ':' cs)
    return cs
  | _ => none

/-- A time, perhaps with its offset. -/
def isOffsetTime (cs : List Char) : Bool :=
  match readTime cs with
  | some [] => true
  | some cs => readOffset cs == some []
  | none => false

/-- A date alone. -/
def isDate (cs : List Char) : Bool := readDate cs == some []

/-- A date, a time, or both with a letter between them. -/
def isDateTime (cs : List Char) : Bool :=
  isDate cs || readTime cs == some [] ||
    match readDate cs with
    | some ('T' :: cs) | some ('t' :: cs) => isOffsetTime cs
    | _ => false

/-! ### Words -/

/-- The value of a word. -/
def readWord (word : List Char) : Option Value :=
  if word = "true".toList then some (.boolean true)
  else if word = "false".toList then some (.boolean false)
  else
    match readInteger word with
    | some n => some (.integer n)
    | none =>
      match readFloat word with
      | some x => some (.float x)
      | none => if isDateTime word then some (.dateTime (String.ofList word)) else none

end TreePath.Toml
