import Foreach.Number.Decimal

/-!
Numbers as they are written in decimal.

A numeral has digits in front of its point or behind it, and may have a sign and an exponent.
-/

namespace Foreach

/-- The characters of a number: sign, whole part, fraction and exponent. -/
structure Numeral where
  negative : Bool
  whole : List Char
  fraction : List Char
  exponent : Option Int

namespace Numeral

/-- The nearest binary number. -/
def toBinary64 (n : Numeral) : Binary64 :=
  Decimal.toBinary64 n.negative
    ⟨Text.numeral (n.whole ++ n.fraction), n.exponent.getD 0 - n.fraction.length⟩

/-- The digits behind a point, and what follows them. -/
def fractionOf : List Char → List Char × List Char
  | '.' :: rest => (rest.takeWhile Text.isDigit, rest.dropWhile Text.isDigit)
  | cs => ([], cs)

/-- The exponent that a text is, if it is one or nothing at all. -/
def exponentOf? : List Char → Option (Option Int)
  | [] => some none
  | mark :: rest =>
    let (negative, digits) := Text.takeSign rest
    if (mark = 'e' ∨ mark = 'E') ∧ digits ≠ [] ∧ digits.all Text.isDigit then
      some (some (Text.signed negative (Text.numeral digits)))
    else none

/-- The numeral that a text is. -/
def ofText? (cs : List Char) : Option Numeral :=
  let (negative, body) := Text.takeSign cs
  let whole := body.takeWhile Text.isDigit
  let (fraction, rest) := fractionOf (body.dropWhile Text.isDigit)
  if whole = [] ∧ fraction = [] then none
  else (exponentOf? rest).map fun exponent => ⟨negative, whole, fraction, exponent⟩

end Numeral
end Foreach
