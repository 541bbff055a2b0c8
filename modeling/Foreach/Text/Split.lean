/-!
Parts of a text between separators, and the ends of its lines.

A text that is read from a file has one kind of line end, whatever kinds the file has.
-/

namespace Foreach.Text

/-- The parts of a text between separators, empty ones included. -/
def split (separator : Char) : List Char → List (List Char)
  | [] => [[]]
  | c :: cs =>
    if c = separator then [] :: split separator cs
    else
      match split separator cs with
      | part :: parts => (c :: part) :: parts
      | [] => [[c]]

/-- The text with a line feed for every carriage return, and one for the two together. -/
def unifyLineEnds : List Char → List Char
  | '\r' :: '\n' :: cs => '\n' :: unifyLineEnds cs
  | '\r' :: cs => '\n' :: unifyLineEnds cs
  | c :: cs => c :: unifyLineEnds cs
  | [] => []

end Foreach.Text
