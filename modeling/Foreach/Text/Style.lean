import Foreach.Text.Digits
import Foreach.Text.Half

/-!
Lines as they are printed.

A text may have marks in it that style it on a terminal. Plain output leaves them out. An error line
shows each half of a character by its code, as there is no other way to write it.
-/

namespace Foreach.Text

/-- A character between the bracket and the letter of a mark. -/
def isStyleParameter (c : Char) : Bool := c.isDigit || c = ';' || c = '?'

/-- The length of the mark that a text begins with: an escape character, a bracket, parameters and a
letter. -/
def markLength : List Char → Nat
  | '\x1b' :: '[' :: rest =>
    let parameters := rest.takeWhile isStyleParameter
    match rest.drop parameters.length with
    | c :: _ => if c.isAlpha then parameters.length + 3 else 0
    | [] => 0
  | _ => 0

/-- The text without its marks, and without as many characters at its start. -/
def dropMarks : Nat → List Char → List Char
  | _, [] => []
  | n + 1, _ :: rest => dropMarks n rest
  | 0, c :: rest =>
    match markLength (c :: rest) with
    | 0 => c :: dropMarks 0 rest
    | n + 1 => dropMarks n rest

/-- The text without marks. -/
def unstyled (s : String) : String := String.ofList (dropMarks 0 s.toList)

/-- A half by its code, any other character as it is. -/
def showHalf (c : Char) : List Char :=
  if isHalf c then '\\' :: 'u' :: padded 16 4 (codeOf c) else [c]

/-- The text with its halves shown by their codes. -/
def showHalves (s : String) : String := String.ofList (s.toList.flatMap showHalf)

end Foreach.Text
