import Foreach.Number.Binary64
import Foreach.Text.Digits

/-!
Decimal texts of binary64 numbers.

`Decimal.shortest` finds the fewest digits that still single out a number among all others: for one
digit, two digits, and so on it tests the two neighbours of the number on that decimal grid against
the interval of values that round to it. `Decimal.toBinary64` reads a decimal back. The marks of the
written form are kept apart from the digits, in `FloatText`.
-/

namespace Foreach

/-- A nonnegative decimal number `coefficient * 10 ^ exponent`. -/
structure Decimal where
  coefficient : Nat
  exponent : Int
  deriving DecidableEq, Repr

namespace Decimal

/-- The number of decimal digits of `n`; zero has none. -/
def digitCount (n : Nat) : Nat :=
  if n = 0 then 0 else (Nat.toDigits 10 n).length

/-- `10 ^ k` over `1`, or `1` over `10 ^ (-k)` for a negative `k`. -/
def scale (k : Int) : Nat × Nat :=
  if 0 ≤ k then (Nat.pow 10 k.toNat, 1) else (1, Nat.pow 10 (-k).toNat)

/-- The exponent of the leading digit of `num / den`, a positive number: the greatest `p` with
`10 ^ p ≤ num / den`. -/
def leadingExponent (num den : Nat) : Int :=
  let guess : Int := (digitCount num : Int) - digitCount den
  let (up, down) := scale guess
  if up * den ≤ num * down then guess else guess - 1

/-- The same number without zeros at the end of its coefficient. -/
def trimZeros (d : Decimal) : Nat → Decimal
  | 0 => d
  | fuel + 1 =>
    if d.coefficient % 10 = 0 then
      trimZeros ⟨d.coefficient / 10, d.exponent + 1⟩ fuel
    else
      d

/-- The values that round to a number, as bounds over `4 * 2 ^ 1074`; the bounds belong to the
interval when the significand is even. -/
structure Interval where
  low : Nat
  high : Nat
  closed : Bool

/-- Half a step down and half a step up; the step down is half as long from a power of two. -/
def interval (x : Binary64.Finite) : Interval :=
  let step := Nat.pow 2 x.shift
  let value := 4 * x.quanta
  let down := if x.significand = Nat.pow 2 52 ∧ x.shift ≠ 0 then step else 2 * step
  ⟨value - down, value + 2 * step, x.significand % 2 = 0⟩

/-- Whether `num / den` lies in the interval, `num` being counted over `4 * 2 ^ 1074`. -/
def Interval.contains (i : Interval) (num den : Nat) : Bool :=
  if i.closed then i.low * den ≤ num && num ≤ i.high * den
  else i.low * den < num && num < i.high * den

/-- A decimal in quarter quanta, as a quotient. -/
def quarterQuanta (d : Decimal) : Nat × Nat :=
  let (up, down) := scale d.exponent
  (d.coefficient * up * (4 * Binary64.unit), down)

/-- Whether a decimal rounds to `x`. -/
def rounds (d : Decimal) (x : Binary64.Finite) : Bool :=
  let (num, den) := quarterQuanta d
  (interval x).contains num den

/-- The nearer of the two whole numbers beside `num / den`, of those that fit. Of two that are equally
near the even one is taken. -/
def neighbour? (fits : Nat → Bool) (num den : Nat) : Option Nat :=
  let below := num / den
  let rest := num % den
  match fits below, fits (below + 1) with
  | true, true =>
    if 2 * rest < den ∨ (2 * rest = den ∧ below % 2 = 0) then some below else some (below + 1)
  | true, false => some below
  | false, true => some (below + 1)
  | false, false => none

/-- The nearer of the two neighbours of `x` on the grid of multiples of `10 ^ exponent`, of those that
round to `x`. -/
def onGrid (x : Binary64.Finite) (exponent : Int) : Option Decimal :=
  let (up, down) := scale exponent
  (neighbour? (fun c => rounds ⟨c, exponent⟩ x) (x.quanta * down) (up * Binary64.unit)).map
    fun c => ⟨c, exponent⟩

/-- The first grid with a hit, from `digits` digits on. -/
def search (x : Binary64.Finite) (leading : Int) (digits : Nat) : Nat → Option Decimal
  | 0 => none
  | fuel + 1 =>
    match onGrid x (leading + 1 - digits) with
    | some d => some d
    | none => search x leading (digits + 1) fuel

/-- The decimal with the fewest digits that rounds to `x`, and of those the nearest. Seventeen digits
always suffice. -/
def shortest (x : Binary64.Finite) : Decimal :=
  if x.significand = 0 then ⟨0, 0⟩
  else
    let leading := leadingExponent x.quanta (Binary64.unit)
    match search x leading 1 17 with
    | some d => trimZeros d 20
    | none => ⟨0, 0⟩

/-- The nearest binary64 number. Exponents far outside its range are settled without computing the
power. -/
def toBinary64 (negative : Bool) (d : Decimal) : Binary64 :=
  let reach : Int := d.exponent + digitCount d.coefficient
  if d.coefficient = 0 then Binary64.zero negative
  else if reach < -330 then Binary64.zero negative
  else if 310 < reach then .infinity negative
  else
    let (up, down) := scale d.exponent
    Binary64.ofQuanta negative (d.coefficient * up * Binary64.unit) down

end Decimal

/-- The written form of a binary64 number: which exponents of the leading digit are written
positionally, and the names of the numbers without digits. -/
structure FloatText where
  lowest : Int
  highest : Int
  nan : String
  infinity : String

namespace FloatText

/-- Digits with a point after the first `places`; whole numbers end in `.0`. -/
def positional (digits : List Char) (leading : Int) : List Char :=
  if leading < 0 then
    ['0', '.'] ++ List.replicate (-leading - 1).toNat '0' ++ digits
  else
    let whole := leading.toNat + 1
    let front := digits.take whole ++ List.replicate (whole - digits.length) '0'
    match digits.drop whole with
    | [] => front ++ ['.', '0']
    | fraction => front ++ '.' :: fraction

/-- One digit before the point and a signed exponent of at least two digits. -/
def scientific (digits : List Char) (leading : Int) : List Char :=
  let mantissa := match digits with
    | [] => []
    | [d] => [d]
    | d :: rest => d :: '.' :: rest
  mantissa ++ ['e', if leading < 0 then '-' else '+'] ++ Text.padded 10 2 leading.natAbs

def ofDecimal (t : FloatText) (d : Decimal) : List Char :=
  let digits := Nat.toDigits 10 d.coefficient
  let leading : Int := d.exponent + digits.length - 1
  if t.lowest ≤ leading ∧ leading ≤ t.highest then positional digits leading
  else scientific digits leading

def render (t : FloatText) (x : Binary64) : List Char :=
  let sign : List Char := if x.isNegative then ['-'] else []
  match x with
  | .nan => t.nan.toList
  | .infinity _ => sign ++ t.infinity.toList
  | .finite f => sign ++ t.ofDecimal (Decimal.shortest f)

end FloatText

/-- Numbers in plain text: positional from `0.0001` up to sixteen digits, `1e+16` above. -/
def FloatText.plain : FloatText := ⟨-4, 15, "nan", "inf"⟩

/-- Numbers in a JSON document; the numbers without digits have the names of that format. -/
def FloatText.json : FloatText := ⟨-4, 15, "NaN", "Infinity"⟩

end Foreach
