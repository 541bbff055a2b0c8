/-!
Halves of characters.

Some notations write a character beyond U+FFFF as a pair of halves, the high one first. A half that
stands alone is no character, and no bytes encode it, but a text can hold it until it is written; it is
kept as one of the last 2048 private characters.
-/

namespace Foreach.Text

def isHighHalf (n : Nat) : Bool := 0xd800 ≤ n && n ≤ 0xdbff

def isLowHalf (n : Nat) : Bool := 0xdc00 ≤ n && n ≤ 0xdfff

/-- The distance between a half and the private character that it is kept as. -/
def halfShift : Nat := 0x102000

/-- The character with a code, or the one that a half is kept as. -/
def charOfCode (n : Nat) : Char :=
  if isHighHalf n || isLowHalf n then Char.ofNat (n + halfShift) else Char.ofNat n

/-- The character of a pair of halves. -/
def charOfHalves (high low : Nat) : Char :=
  Char.ofNat (0x10000 + (high - 0xd800) * 0x400 + (low - 0xdc00))

/-- A half that stands alone. -/
def isHalf (c : Char) : Bool := 0xd800 + halfShift ≤ c.toNat

/-- The code of a half, or of a character. -/
def codeOf (c : Char) : Nat := if isHalf c then c.toNat - halfShift else c.toNat

def codes (s : String) : List Nat := s.toList.map codeOf

/-- Whether some codes stand in front of others, or are the same. -/
def codesPrecede : List Nat → List Nat → Bool
  | [], _ => true
  | _ :: _, [] => false
  | m :: ms, n :: ns => m < n || m == n && codesPrecede ms ns

/-- Whether a text stands in front of another, or is the same. -/
def precedes (a b : String) : Bool := codesPrecede (codes a) (codes b)

end Foreach.Text
