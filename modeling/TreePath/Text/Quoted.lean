import TreePath.Text.Hidden

/-! # Quoted text

A text in double quotes that shows each of its characters: the quote and the backslash get a
backslash in front, four controls have letters of their own, and every other character that does not
show on its own is written as its code point in hexadecimal, between braces. -/

namespace TreePath.Text

/-- The lowercase hexadecimal digits of a number, without leading zeros. -/
def hexText (n : Nat) : String := String.ofList (Nat.toDigits 16 n)

/-- A character as it is written between double quotes. -/
def quotedChar (c : Char) : String :=
  match c with
  | '\x00' => "\\0"
  | '\t' => "\\t"
  | '\n' => "\\n"
  | '\r' => "\\r"
  | '"' => "\\\""
  | '\\' => "\\\\"
  | c => if isHidden c then "\\u\x7b" ++ hexText c.toNat ++ "\x7d" else c.toString

/-- The text between double quotes. -/
def quoted (s : String) : String :=
  "\"" ++ String.join (s.toList.map quotedChar) ++ "\""

end TreePath.Text
