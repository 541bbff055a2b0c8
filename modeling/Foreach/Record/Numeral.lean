import Foreach.Issue
import Foreach.Text.Blank
import Foreach.Text.Digits

/-!
Whole numbers in the texts of a record.

Around a number there may be white space, between its digits underscores, and behind it a point with
zeros. Zeros in front of it are taken off before anything else is looked at, so they may stand in front
of its minus sign as well.
-/

namespace Foreach.Check

/-- The result of checking one value, the place not yet known. -/
abbrev Result (α : Type) := Except Issue.Cause α

/-- A character that the rest of a number can begin with, zeros aside. -/
def beginsNumber (c : Char) : Bool := ('1' ≤ c && c ≤ '9') || c = '-'

/-- A text without the zeros, and the underscores between them, that follow a zero; the last of them
stays if no digit follows. -/
def dropZeros (last : Char) : List Char → Option (List Char)
  | [] => some [last]
  | c :: rest =>
    if c = '0' ∨ c = '_' then dropZeros c rest
    else if beginsNumber c then some (c :: rest)
    else if c = '.' then some (last :: c :: rest)
    else none

/-- A text without the zeros that it starts with; none if it cannot be a number. -/
def dropLeadingZeros : List Char → Option (List Char)
  | [] => none
  | c :: rest =>
    if c = '0' then dropZeros c rest else if beginsNumber c then some (c :: rest) else none

/-- A text without a plus sign in front, behind which no other sign may stand. -/
def dropPlus : List Char → Option (List Char)
  | '+' :: '-' :: _ => none
  | '+' :: rest => some rest
  | cs => some cs

/-- A text without a point at its end and the zeros behind it, of which there is one at least. -/
def dropZeroFraction (cs : List Char) : List Char :=
  match cs.dropWhile (· != '.') with
  | _ :: d :: fraction => if (d :: fraction).all (· == '0') then cs.takeWhile (· != '.') else cs
  | _ => cs

/-- A text without underscores, if there is no underscore at its ends and no two are side by side. -/
def dropUnderscores (cs : List Char) : List Char :=
  let pairs := cs.zip (cs.drop 1)
  if cs.head? = some '_' ∨ cs.getLast? = some '_' ∨ pairs.contains ('_', '_') then cs
  else cs.filter (· != '_')

/-- The most characters that a number may have. -/
def longestNumber : Nat := 4300

/-- The whole number of a text. -/
def wholeOfText (s : String) : Result Int :=
  let trimmed := Text.dropEndWhile Text.isWhite (s.toList.dropWhile Text.isWhite)
  match (dropPlus trimmed).bind dropLeadingZeros with
  | none => .error .unclearInt
  | some cs =>
    let cs := dropUnderscores (dropZeroFraction cs)
    let digits := if cs.head? = some '-' then cs.drop 1 else cs
    if longestNumber < cs.length then .error .hugeInt
    else if digits ≠ [] ∧ digits.all Text.isDigit then
      .ok (Text.signed (cs.head? = some '-') (Text.numeral digits))
    else .error .unclearInt

end Foreach.Check
