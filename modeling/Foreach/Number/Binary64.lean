/-!
Binary floating point numbers of 64 bits, as exact counts.

The smallest positive binary64 number is `2 ^ (-1074)`, the *quantum*; every finite number is a whole
number of quanta, and a number is held as that count in the form `significand * 2 ^ shift`. Arithmetic
is exact on counts and is rounded once, to the nearest number, a tie to the even significand.
-/

namespace Foreach

/-- The quanta in one unit. -/
def Binary64.unit : Nat := Nat.pow 2 1074

/-- The forms in which a number is kept: full width, or at the smallest shift. -/
def Binary64.Canonical (significand shift : Nat) : Prop :=
  significand < Nat.pow 2 53 ∧ (shift = 0 ∨ Nat.pow 2 52 ≤ significand) ∧ shift ≤ 2045

instance (significand shift : Nat) : Decidable (Binary64.Canonical significand shift) :=
  inferInstanceAs (Decidable (_ ∧ _ ∧ _))

/-- A finite number, a sign and `significand * 2 ^ shift` quanta. -/
structure Binary64.Finite where
  negative : Bool
  significand : Nat
  shift : Nat
  canonical : Binary64.Canonical significand shift
  deriving DecidableEq

/-- A binary64 number. -/
inductive Binary64 where
  | nan
  | infinity (negative : Bool)
  | finite (number : Binary64.Finite)
  deriving DecidableEq

namespace Binary64

/-- The quotient `num / den` rounded to a whole number, a half to the even neighbour. -/
def divHalfEven (num den : Nat) : Nat :=
  let q := num / den
  let twice := 2 * (num % den)
  if twice < den ∨ (twice = den ∧ q % 2 = 0) then q else q + 1

/-- The number with this sign nearest to `num / den` quanta; from half a step past the largest finite
number on it is infinite. -/
def ofQuanta (negative : Bool) (num den : Nat) : Binary64 :=
  let shift := (num / den).log2 - 52
  let significand := divHalfEven num (den * Nat.pow 2 shift)
  let carried := if significand = Nat.pow 2 53 then (Nat.pow 2 52, shift + 1) else (significand, shift)
  if h : Canonical carried.1 carried.2 then
    .finite ⟨negative, carried.1, carried.2, h⟩
  else
    .infinity negative

/-- The magnitude of a finite number in quanta. -/
def Finite.quanta (x : Finite) : Nat := x.significand * Nat.pow 2 x.shift

/-- A finite number in quanta, with its sign. -/
def Finite.signedQuanta (x : Finite) : Int :=
  if x.negative then -(x.quanta : Int) else x.quanta

/-- Zero with the given sign. -/
def zero (negative : Bool) : Binary64 :=
  .finite ⟨negative, 0, 0, by decide⟩

/-- The number nearest to a whole number of quanta over `den`; an exact zero is positive. -/
def ofSignedQuanta (num : Int) (den : Nat) : Binary64 :=
  ofQuanta (decide (num < 0)) num.natAbs den

/-- The number nearest to a whole number. -/
def ofInt (n : Int) : Binary64 := ofSignedQuanta (n * unit) 1

/-- The number nearest to the quotient of two whole numbers, the second not zero. A zero quotient is
negative if just one of the two is. -/
def ofRatio (num : Int) (den : Int) : Binary64 :=
  ofQuanta (decide (num < 0) != decide (den < 0)) (num.natAbs * unit) den.natAbs

def isNegative : Binary64 → Bool
  | .nan => false
  | .infinity negative => negative
  | .finite x => x.negative

/-- Neither infinite nor NaN. -/
def isFinite : Binary64 → Bool
  | .finite _ => true
  | _ => false

def neg : Binary64 → Binary64
  | .nan => .nan
  | .infinity negative => .infinity !negative
  | .finite x => .finite { x with negative := !x.negative }

/-- Sum. Two zeros of one sign keep it; every other exact zero is positive. -/
def add : Binary64 → Binary64 → Binary64
  | .nan, _ => .nan
  | _, .nan => .nan
  | .infinity a, .infinity b => if a = b then .infinity a else .nan
  | .infinity a, .finite _ => .infinity a
  | .finite _, .infinity b => .infinity b
  | .finite x, .finite y =>
    let sum := x.signedQuanta + y.signedQuanta
    if sum = 0 then zero (x.negative && y.negative) else ofSignedQuanta sum 1

def sub (x y : Binary64) : Binary64 := add x y.neg

def isZero : Binary64 → Bool
  | .finite x => x.significand = 0
  | _ => false

def mul (a b : Binary64) : Binary64 :=
  let negative := a.isNegative != b.isNegative
  match a, b with
  | .nan, _ => .nan
  | _, .nan => .nan
  | .finite x, .finite y => ofQuanta negative (x.quanta * y.quanta) (unit)
  | a, b => if a.isZero || b.isZero then .nan else .infinity negative

/-- Quotient; over zero it is infinite, and NaN where both are zero. -/
def div (a b : Binary64) : Binary64 :=
  let negative := a.isNegative != b.isNegative
  match a, b with
  | .nan, _ => .nan
  | _, .nan => .nan
  | .infinity _, .infinity _ => .nan
  | .infinity _, .finite _ => .infinity negative
  | .finite _, .infinity _ => zero negative
  | .finite x, .finite y =>
    if y.significand = 0 then
      if x.significand = 0 then .nan else .infinity negative
    else
      ofQuanta negative (x.quanta * unit) y.quanta

/-- Order of the values: NaN is below nothing, and the two zeros are level. -/
def lt : Binary64 → Binary64 → Bool
  | .nan, _ => false
  | _, .nan => false
  | .infinity a, .infinity b => a && !b
  | .infinity a, .finite _ => a
  | .finite _, .infinity b => !b
  | .finite x, .finite y => x.signedQuanta < y.signedQuanta

/-- Equality of the values: NaN is not equal to itself, and the two zeros are equal. -/
def sameValue : Binary64 → Binary64 → Bool
  | .infinity a, .infinity b => a == b
  | .finite x, .finite y => x.signedQuanta = y.signedQuanta
  | _, _ => false

/-- Whether the value is the whole number `n`. -/
def isInt : Binary64 → Int → Bool
  | .finite x, n => x.signedQuanta = n * unit
  | _, _ => false

/-- The whole number that a finite number is equal to, if there is one. -/
def toInt? : Binary64 → Option Int
  | .finite x =>
    if x.signedQuanta % unit = 0 then some (x.signedQuanta / unit) else none
  | _ => none

/-- The greater of two numbers; the first where neither is greater. -/
def max (a b : Binary64) : Binary64 := if lt a b then b else a

end Binary64
end Foreach
