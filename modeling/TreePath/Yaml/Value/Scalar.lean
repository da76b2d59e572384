import TreePath.Text.Digits
import TreePath.Yaml.Value.Basic

/-! # Plain scalars as values

A plain scalar is read as null, as a truth value, as a number, or else as a string. Integers may
have a sign and may be written in base 16, 8 or 2; a decimal number with a superfluous zero in front
is a string. An integer that needs more than 64 bits but no more than 128 is refused, and one that
needs more than 128 is a double.

* `readUntagged`: the value of a plain scalar without tag.
* `readTagged`: the value of a scalar with one of the tags that ask for a kind of value. -/

namespace TreePath.Yaml

open Text (readDigits)

/-! ### Null and truth values -/

def isNull (s : String) : Bool := s ∈ ["null", "Null", "NULL", "~"]

def readBool (s : String) : Option Bool :=
  if s ∈ ["true", "True", "TRUE"] then some true
  else if s ∈ ["false", "False", "FALSE"] then some false
  else none

/-! ### Integers -/

/-- A number less than `bound`, or none. -/
def below (bound : Nat) (n? : Option Nat) : Option Nat := n?.filter (· < bound)

/-- The text without a given start, if it has it. -/
def dropStart? (start : String) (cs : List Char) : Option (List Char) :=
  if start.toList.isPrefixOf cs then some (cs.drop start.length) else none

/-- A base is told by the start of the text. -/
def basePrefixes : List (String × Nat) := [("0x", 16), ("0o", 8), ("0b", 2)]

def startsWithSign (cs : List Char) : Bool := cs.head?.any fun c => c == '+' || c == '-'

/-- The text without a plus sign in front. -/
def dropPlus (cs : List Char) : List Char := if cs.head? = some '+' then cs.drop 1 else cs

/-- Several digits, perhaps with a sign, of which the first is a zero. -/
def hasLeadingZero (cs : List Char) : Bool :=
  let cs := if startsWithSign cs then cs.drop 1 else cs
  cs.length > 1 && cs.head? == some '0' && cs.all Char.isDigit

/-- An integer without minus sign, less than `2 ^ bits`. -/
def readUnsigned (bits : Nat) (cs : List Char) : Option Int :=
  let body := dropPlus cs
  let based := basePrefixes.findSome? fun (start, base) =>
    (dropStart? start body).bind fun digits => below (Nat.pow 2 bits) (readDigits base digits)
  match based with
  | some n => some n
  | none =>
    if startsWithSign body || hasLeadingZero cs then none
    else (below (Nat.pow 2 bits) (readDigits 10 body)).map Int.ofNat

/-- An integer with minus sign, not less than `-2 ^ (bits - 1)`. -/
def readNegative (bits : Nat) (cs : List Char) : Option Int :=
  let bound := Nat.pow 2 (bits - 1) + 1
  let based := basePrefixes.findSome? fun (start, base) =>
    (dropStart? ("-" ++ start) cs).bind fun digits => below bound (readDigits base digits)
  match based with
  | some n => some (-n)
  | none =>
    if hasLeadingZero cs then none
    else
      (dropStart? "-" cs).bind fun digits =>
        (below bound (readDigits 10 digits)).map fun n => -Int.ofNat n

/-- What a text is as an integer. -/
inductive IntegerReading where
  /-- No integer, or one of more than 128 bits. -/
  | none
  /-- An integer of 64 bits. -/
  | value (n : Int)
  /-- An integer of more than 64 bits and at most 128. -/
  | wide

/-- Reads an integer of some number of bits. -/
def readIntegerOf (bits : Nat) (cs : List Char) : Option Int :=
  (readUnsigned bits cs).orElse fun _ => readNegative bits cs

def readInteger (cs : List Char) : IntegerReading :=
  match readIntegerOf 64 cs with
  | some n => .value n
  | none => if (readIntegerOf 128 cs).isSome then .wide else .none

/-! ### Doubles -/

/-- The exponent behind the letter, with its sign; there has to be a digit. -/
def readExponent (cs : List Char) : Option Int :=
  match cs with
  | '-' :: digits => (readDigits 10 digits).map fun n => -Int.ofNat n
  | '+' :: digits => (readDigits 10 digits).map Int.ofNat
  | digits => (readDigits 10 digits).map Int.ofNat

/-- A decimal number without sign: digits, perhaps with a point among them or beside them, and
perhaps an exponent. -/
def readUnsignedFloat (cs : List Char) : Option Float :=
  let isPart (c : Char) : Bool := c != 'e' && c != 'E'
  let mantissa := cs.takeWhile isPart
  let whole := mantissa.takeWhile (· != '.')
  let fraction := (mantissa.drop whole.length).drop 1
  let digits := whole ++ fraction
  let exponent? := match cs.drop mantissa.length with
    | [] => some 0
    | _ :: e => readExponent e
  match readDigits 10 digits, exponent? with
  | some n, some e => some (Decimal.floatOfDecimal n (e - fraction.length))
  | _, _ => none

/-- A finite decimal number with or without sign, an infinity, or the one not-a-number. -/
def readFloat (s : String) : Option Float :=
  let infinity : Float := 1.0 / 0.0
  let cs := s.toList
  let body := dropPlus cs
  let isSigned := body.length < cs.length
  if String.ofList body ∈ [".inf", ".Inf", ".INF"] then some infinity
  else if s ∈ ["-.inf", "-.Inf", "-.INF"] then some (-infinity)
  else if s ∈ [".nan", ".NaN", ".NAN"] then some (0.0 / 0.0)
  else
    let number := match body with
      | '-' :: digits => if isSigned then none else (readUnsignedFloat digits).map (- ·)
      | digits => readUnsignedFloat digits
    number.filter (·.isFinite)

/-! ### Scalars -/

/-- The value of a plain scalar without tag. -/
def readUntagged (s : String) : Option Value :=
  if s.isEmpty || isNull s then some .null
  else
    match readBool s with
    | some b => some (.bool b)
    | none =>
      match readInteger s.toList with
      | .value n => some (.number (.integer n))
      | .wide => none
      | .none =>
        if hasLeadingZero s.toList then some (.string s)
        else
          match readFloat s with
          | some x => some (.number (.float x))
          | none => some (.string s)

/-- The tag of a kind of value. -/
def kindTag (kind : String) : List UInt8 := ("tag:yaml.org,2002:" ++ kind).toUTF8.toList

/-- The value of a scalar with a tag that is not of the document. Four tags ask for a kind of value,
however the scalar is written; any other makes a string. -/
def readTagged (tag : List UInt8) (s : String) : Option Value :=
  if tag = kindTag "bool" then (readBool s).map .bool
  else if tag = kindTag "int" then
    match readInteger s.toList with
    | .value n => some (.number (.integer n))
    | _ => none
  else if tag = kindTag "float" then (readFloat s).map fun x => .number (.float x)
  else if tag = kindTag "null" then if isNull s then some .null else none
  else some (.string s)

end TreePath.Yaml
