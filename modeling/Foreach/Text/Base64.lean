import Foreach.Text.Digits

/-!
Bytes as text in base 64.

Four characters stand for three bytes, six bits each. Characters outside of the alphabet do not count;
an equals sign fills up a group of four, and what follows a group that is filled up does not count
either.
-/

namespace Foreach.Base64

/-- The six bits that a character stands for. -/
def sextet? (c : Char) : Option Nat :=
  if 'A' ≤ c ∧ c ≤ 'Z' then some (c.toNat - 'A'.toNat)
  else if 'a' ≤ c ∧ c ≤ 'z' then some (c.toNat - 'a'.toNat + 26)
  else if Text.isDigit c then some (Text.digitValue c + 52)
  else if c = '+' then some 62
  else if c = '/' then some 63
  else none

/-- A group under way: how many characters it has, the bits of the last one that are left, and how many
signs have filled it up. -/
structure Group where
  size : Nat
  left : Nat
  fill : Nat

/-- The bytes that a text stands for, a group being under way. -/
def decodeFrom (g : Group) : List Char → Option (List UInt8)
  | [] => if g.size = 0 then some [] else none
  | c :: cs =>
    if c = '=' then
      if g.size < 2 then decodeFrom g cs
      else if 4 ≤ g.size + g.fill + 1 then some []
      else decodeFrom { g with fill := g.fill + 1 } cs
    else
      match sextet? c with
      | none => decodeFrom g cs
      | some n =>
        match g.size with
        | 0 => decodeFrom ⟨1, n, 0⟩ cs
        | 1 => (decodeFrom ⟨2, n % 16, 0⟩ cs).map (UInt8.ofNat (4 * g.left + n / 16) :: ·)
        | 2 => (decodeFrom ⟨3, n % 4, 0⟩ cs).map (UInt8.ofNat (16 * g.left + n / 4) :: ·)
        | _ => (decodeFrom ⟨0, 0, 0⟩ cs).map (UInt8.ofNat (64 * g.left + n) :: ·)

/-- The bytes that a text stands for; none if the last group is not whole. -/
def decode (cs : List Char) : Option (List UInt8) := decodeFrom ⟨0, 0, 0⟩ cs

end Foreach.Base64
