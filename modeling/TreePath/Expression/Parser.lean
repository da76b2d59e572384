import TreePath.Expression.Basic
import TreePath.Text.Digits
import TreePath.Text.Split

/-! # Reading expressions

The text of an expression is cut at its dots, and each piece is read as a segment: a name without
brackets, then any number of brackets. A bracket holds `*`, a position in decimal without leading
zeros, or nothing; an empty bracket selects nothing and is dropped.

A piece that is no segment is refused with a `Fault`, which names the first thing wrong in it from
the left, and the error of a text is that of its first refused piece.

* `Segment.read`: one piece.
* `Expression.parse`: a whole text. -/

namespace TreePath

/-- Why a piece of text is no segment. -/
inductive Fault where
  /-- There is nothing between the two dots. -/
  | empty
  /-- A `]` comes before every `[`. -/
  | strayClose
  /-- The piece starts with a bracket. -/
  | missingName
  /-- A `[` stands inside a bracket. -/
  | nestedOpen
  /-- A bracket is not closed. -/
  | unclosed
  /-- The body of a bracket has a character that is no digit. -/
  | notAnIndex (body : String)
  /-- The body of a bracket is a number with a superfluous zero in front. -/
  | leadingZero (body : String)
  /-- The body of a bracket is a number beyond 64 bits. -/
  | indexTooLarge (body : String)
  /-- The character `c`, at byte `offset` of the piece, follows a bracket and opens none. -/
  | trailing (c : Char) (offset : Nat)
  deriving DecidableEq, Repr

/-- The wording of a fault. -/
def Fault.message : Fault → String
  | empty => "empty segment"
  | strayClose => "']' without matching '['"
  | missingName => "missing name before '['"
  | nestedOpen => "nested '['"
  | unclosed => "'[' without matching ']'"
  | notAnIndex body => "invalid index '" ++ body ++ "'"
  | leadingZero body => "leading zero in index '" ++ body ++ "'"
  | indexTooLarge body => "index out of range '" ++ body ++ "'"
  | trailing c offset =>
    "unexpected '" ++ c.toString ++ "' at position " ++ Nat.repr offset ++ " after ']'"

/-- The refusal of a text: its first piece that is no segment, and why it is none. -/
structure InvalidExpression where
  segment : String
  fault : Fault
  deriving DecidableEq, Repr

def InvalidExpression.message (e : InvalidExpression) : String :=
  "expression is invalid. segment '" ++ e.segment ++ "': " ++ e.fault.message

/-! ### Brackets -/

/-- A character that a name may hold, inside a piece. -/
def isNameChar (c : Char) : Bool := c != '[' && c != ']'

/-- The number of bytes that characters take in UTF-8. -/
def utf8Length : List Char → Nat
  | [] => 0
  | c :: cs => c.utf8Size + utf8Length cs

/-- Reads the body of a bracket; an empty body selects nothing. -/
def Selector.read (body : List Char) : Except Fault (Option Selector) :=
  if body = [] then .ok none
  else if body = ['*'] then .ok (some .wildcard)
  else if !body.all Char.isDigit then .error (.notAnIndex (String.ofList body))
  else if body.length > 1 && body.head? == some '0' then
    .error (.leadingZero (String.ofList body))
  else if Text.digitsValue 10 body < UInt64.size then
    .ok (some (.position (UInt64.ofNat (Text.digitsValue 10 body))))
  else .error (.indexTooLarge (String.ofList body))

mutual

/-- Reads brackets up to the end of the piece; `offset` is the byte where they start. -/
def readBrackets (offset : Nat) : List Char → Except Fault (List Selector)
  | [] => .ok []
  | c :: cs =>
    if c = '[' then readBody (offset + 1) [] cs
    else .error (.trailing c offset)

/-- Reads the rest of a bracket whose body so far is `body`, and then the brackets after it. -/
def readBody (offset : Nat) (body : List Char) : List Char → Except Fault (List Selector)
  | [] => .error .unclosed
  | c :: cs =>
    if c = ']' then
      match Selector.read body with
      | .error e => .error e
      | .ok selector =>
        match readBrackets (offset + 1) cs with
        | .error e => .error e
        | .ok rest => .ok (selector.toList ++ rest)
    else if c = '[' then .error .nestedOpen
    else readBody (offset + c.utf8Size) (body ++ [c]) cs

end

/-! ### Segments and expressions -/

/-- Reads one piece of text between dots. -/
def Segment.read (piece : List Char) : Except Fault Segment :=
  if piece = [] then .error .empty
  else
    let name := piece.takeWhile isNameChar
    let brackets := piece.dropWhile isNameChar
    if brackets.head? = some ']' then .error .strayClose
    else if name = [] then .error .missingName
    else (readBrackets (utf8Length name) brackets).map fun indices => ⟨String.ofList name, indices⟩

/-- Reads pieces from the left, up to the first that is no segment. -/
def readPieces : List (List Char) → Except InvalidExpression (List Segment)
  | [] => .ok []
  | piece :: rest =>
    match Segment.read piece with
    | .error fault => .error ⟨String.ofList piece, fault⟩
    | .ok segment => (readPieces rest).map (segment :: ·)

/-- Reads the text of an expression. -/
def Expression.parse (text : String) : Except InvalidExpression Expression :=
  (readPieces (Text.split '.' text.toList)).map Expression.mk

end TreePath
