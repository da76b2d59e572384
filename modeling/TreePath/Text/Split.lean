/-! # Splitting text

Text is cut at every separator, so that there is one piece more than there are separators. -/

namespace TreePath.Text

/-- The text between separators. -/
def split (separator : Char) : List Char → List (List Char)
  | [] => [[]]
  | c :: cs =>
    if c = separator then [] :: split separator cs
    else
      match split separator cs with
      | [] => [[c]]
      | piece :: rest => (c :: piece) :: rest

end TreePath.Text
