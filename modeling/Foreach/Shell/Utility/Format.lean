import Foreach.Number.Numeral
import Foreach.Shell.Arithmetic
import Foreach.Shell.Utility.Basic

/-!
Directives of formats: how an argument is put into a text.

A number with a fraction is rounded from its exact value, a half to the even neighbour.
-/

namespace Foreach.Shell.Format

/-- A directive: what stands between the percent sign and its letter, and the letter. -/
structure Directive where
  flags : List Char
  width : Nat
  precision : Option Nat
  letter : Char

namespace Directive

def has (d : Directive) (flag : Char) : Bool := d.flags.contains flag

/-- The text filled to the width of the directive; `zeros` tells whether zeros may fill it. -/
def fill (d : Directive) (zeros : Bool) (cs : List Char) : List Char :=
  Utility.widened (d.has '-') (zeros && d.has '0') d.width cs

/-- The sign of a number that may be shown with one. -/
def signOf (d : Directive) (negative : Bool) : List Char :=
  if negative then ['-'] else if d.has '+' then ['+'] else if d.has ' ' then [' '] else []

end Directive

/-! ### Whole numbers -/

/-- A number that an argument gives, with the part of the argument that was not taken. A quote in front
stands for the number of the character behind it. -/
def takeWhole (arg : List Char) : Int × List Char :=
  match arg with
  | '\'' :: rest | '"' :: rest => ((rest.head?.map fun c => (c.toNat : Int)).getD 0, [])
  | arg => (Arithmetic.takeSigned arg).getD (0, arg)

/-- What is wrong with an argument, `rest` being the part of it that is no number. -/
def flawOf (arg rest : List Char) : Option (List Char) :=
  if rest.isEmpty then none
  else
    let what := if rest.length = arg.length then "expected numeric value" else "not completely converted"
    some (arg ++ octetsOf s!": {what}")

/-- The flaw of a number that 64 bits do not hold. -/
def rangeFlaw (arg : List Char) : List Char := arg ++ octetsOf ": Numerical result out of range"

/-- The digits of a natural number for a letter. -/
def naturalDigits (letter : Char) (n : Nat) : List Char :=
  if letter = 'x' then Nat.toDigits 16 n
  else if letter = 'X' then (Nat.toDigits 16 n).map Char.toUpper
  else if letter = 'o' then Nat.toDigits 8 n
  else Nat.toDigits 10 n

/-- What stands in front of the digits of a number if its base is to be seen. -/
def baseMark (letter : Char) (n : Nat) : List Char :=
  if n = 0 then []
  else if letter = 'x' then ['0', 'x']
  else if letter = 'X' then ['0', 'X']
  else if letter = 'o' then ['0']
  else []

/-- A number with its sign and its least number of digits. -/
def shownWhole (d : Directive) (n : Int) : List Char :=
  let signed := d.letter = 'd' || d.letter = 'i'
  let natural := if signed then n.natAbs else (n % 0x10000000000000000).toNat
  let digits := naturalDigits d.letter natural
  let digits := if d.precision = some 0 ∧ natural = 0 then [] else digits
  let digits := Utility.widened false true (d.precision.getD 0) digits
  let front := if signed then d.signOf (n < 0) else if d.has '#' then baseMark d.letter natural else []
  if d.precision.isNone && d.has '0' && !d.has '-' then
    front ++ Utility.widened false true (d.width - front.length) digits
  else d.fill false (front ++ digits)

/-! ### Numbers with a fraction -/

/-- The number in front of a text in decimal notation, and the rest. -/
def takeDecimal (negative : Bool) (cs : List Char) : Option (Binary64 × List Char) :=
  let whole := cs.takeWhile Text.isDigit
  let (fraction, rest) := Numeral.fractionOf (cs.dropWhile Text.isDigit)
  if whole.isEmpty && fraction.isEmpty then none
  else
    let (exponent, rest) : Int × List Char := match rest with
      | e :: more =>
        let (down, digits) := Text.takeSign more
        let power := digits.takeWhile Text.isDigit
        if (e = 'e' ∨ e = 'E') ∧ !power.isEmpty then
          (Text.signed down (Text.numeral power), digits.drop power.length)
        else (0, rest)
      | [] => (0, [])
    some ((Numeral.mk negative whole fraction (some exponent)).toBinary64, rest)

/-- The number in front of a text, and the rest; without a number nothing is taken. -/
def takeReal (arg : List Char) : Binary64 × List Char :=
  let (negative, body) := Text.takeSign (arg.dropWhile Arithmetic.isSpace)
  let lower := body.map Char.toLower
  let named := [("infinity", Binary64.infinity negative), ("inf", .infinity negative), ("nan", .nan)].find?
    fun (name, _) => name.toList.isPrefixOf lower
  match named with
  | some (name, x) => (x, body.drop name.length)
  | none =>
    if ['0', 'x'].isPrefixOf lower then
      let (n, rest) := Arithmetic.takeNumber body
      (.ofInt (if negative then -(n : Int) else n), rest)
    else (takeDecimal negative body).getD (.ofInt 0, arg)

/-- The digits of a number with this many places behind the point. -/
def fixedDigits (x : Binary64.Finite) (places : Nat) (point : Bool) : List Char :=
  let units := Binary64.divHalfEven (x.quanta * Nat.pow 10 places) Binary64.unit
  let digits := Text.padded 10 (places + 1) units
  let front := digits.take (digits.length - places)
  front ++ if places = 0 && !point then [] else '.' :: digits.drop front.length

/-- The first digits of a number, one more than there are places, and the exponent of the first one. -/
def leadingDigits (x : Binary64.Finite) (places : Nat) : List Char × Int :=
  if x.quanta = 0 then (List.replicate (places + 1) '0', 0)
  else
    let e := Decimal.leadingExponent x.quanta Binary64.unit
    let (up, down) := Decimal.scale (places - e)
    let digits := Nat.toDigits 10 (Binary64.divHalfEven (x.quanta * up) (Binary64.unit * down))
    if places + 1 < digits.length then (digits.dropLast, e + 1) else (digits, e)

/-- Digits with a point behind the first, if there is more to come, and an exponent. -/
def withExponent (digits : List Char) (e : Int) (point : Bool) : List Char :=
  let behind := digits.drop 1
  digits.take 1 ++ (if behind.isEmpty && !point then [] else '.' :: behind)
    ++ 'e' :: (if e < 0 then '-' else '+') :: Text.padded 10 2 e.natAbs

/-- Digits without zeros at their end. -/
def withoutZeros (digits : List Char) : List Char := (digits.reverse.dropWhile (· = '0')).reverse

/-- The shorter of the two notations, with this many digits in all. -/
def generalDigits (x : Binary64.Finite) (count : Nat) (keep : Bool) : List Char :=
  let count := max count 1
  let (digits, e) := leadingDigits x (count - 1)
  if -4 ≤ e ∧ e < count then
    let shown := fixedDigits x ((count : Int) - 1 - e).toNat keep
    if keep || !shown.contains '.' then shown
    else
      let trimmed := withoutZeros shown
      if trimmed.getLast? = some '.' then trimmed.dropLast else trimmed
  else withExponent (if keep then digits else digits.take 1 ++ withoutZeros (digits.drop 1)) e keep

/-- The digits of a number that is not below zero for a letter. -/
def realDigits (d : Directive) (x : Binary64.Finite) : List Char :=
  let places := d.precision.getD 6
  let small := d.letter.toLower
  if small = 'f' then fixedDigits x places (d.has '#')
  else if small = 'e' then
    let (digits, e) := leadingDigits x places
    withExponent digits e (d.has '#')
  else generalDigits x places (d.has '#')

def shownReal (d : Directive) (x : Binary64) : List Char :=
  let shown := match x with
    | .nan => "nan".toList
    | .infinity _ => "inf".toList
    | .finite n => realDigits d n
  let front := d.signOf x.isNegative
  let cased := if d.letter.isUpper then shown.map Char.toUpper else shown
  if x.isFinite && d.has '0' && !d.has '-' then
    front ++ Utility.widened false true (d.width - front.length) cased
  else d.fill false (front ++ cased)

end Foreach.Shell.Format
