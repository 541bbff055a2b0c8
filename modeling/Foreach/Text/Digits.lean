/-!
Numerals: their digits, their signs, and the numbers that they stand for.
-/

namespace Foreach.Text

/-- The numeral of `n`, with zeros in front up to `width` digits. -/
def padded (base width n : Nat) : List Char :=
  let digits := Nat.toDigits base n
  List.replicate (width - digits.length) '0' ++ digits

/-- An ASCII decimal digit. -/
def isDigit (c : Char) : Bool := '0' ≤ c && c ≤ '9'

/-- The zeros of the scripts other than ASCII; the nine other digits of a script follow its zero. -/
def foreignZeros : List Nat :=
  [0x660, 0x6f0, 0x7c0, 0x966, 0x9e6, 0xa66, 0xae6, 0xb66, 0xbe6, 0xc66, 0xce6, 0xd66, 0xde6, 0xe50,
    0xed0, 0xf20, 0x1040, 0x1090, 0x17e0, 0x1810, 0x1946, 0x19d0, 0x1a80, 0x1a90, 0x1b50, 0x1bb0,
    0x1c40, 0x1c50, 0xa620, 0xa8d0, 0xa900, 0xa9d0, 0xa9f0, 0xaa50, 0xabf0, 0xff10, 0x104a0,
    0x10d30, 0x11066, 0x110f0, 0x11136, 0x111d0, 0x112f0, 0x11450, 0x114d0, 0x11650, 0x116c0,
    0x11730, 0x118e0, 0x11950, 0x11c50, 0x11d50, 0x11da0, 0x16a60, 0x16ac0, 0x16b50, 0x1d7ce,
    0x1d7d8, 0x1d7e2, 0x1d7ec, 0x1d7f6, 0x1e140, 0x1e2f0, 0x1e950, 0x1fbf0]

/-- The ASCII digit in place of a digit of another script. -/
def commonDigit (c : Char) : Char :=
  let n := c.toNat
  if n < 0x80 then c
  else ((foreignZeros.find? fun zero => zero ≤ n && n < zero + 10).map fun zero => (n - zero).digitChar).getD c

def digitValue (c : Char) : Nat := c.toNat - '0'.toNat

/-- The number written by decimal digits, zero for none. -/
def numeral (cs : List Char) : Nat := cs.foldl (fun n c => 10 * n + digitValue c) 0

/-- Whether a minus sign is in front, and the text behind the sign that is in front. -/
def takeSign : List Char → Bool × List Char
  | '-' :: rest => (true, rest)
  | '+' :: rest => (false, rest)
  | cs => (false, cs)

/-- A whole number with this size. -/
def signed (negative : Bool) (n : Nat) : Int := if negative then -(n : Int) else n

/-- The decimal numeral of a whole number. -/
def intNumeral (n : Int) : List Char :=
  if n < 0 then '-' :: Nat.toDigits 10 n.natAbs else Nat.toDigits 10 n.natAbs

end Foreach.Text
