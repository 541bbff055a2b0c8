import Foreach.Text.Digits
import Foreach.Text.Half
import Foreach.Text.Printable

/-!
Quoted literals of texts and byte strings.

A literal stands in single quotes, or in double quotes if it holds a single quote and no double one.
-/

namespace Foreach.Literal

/-- The quote around a literal. -/
def quote (hasSingle hasDouble : Bool) : Char :=
  if hasSingle && !hasDouble then '"' else '\''

/-- The escapes that texts and byte strings share. -/
def shared (q c : Char) : Option (List Char) :=
  if c = q ∨ c = '\\' then some ['\\', c]
  else if c = '\t' then some ['\\', 't']
  else if c = '\n' then some ['\\', 'n']
  else if c = '\r' then some ['\\', 'r']
  else none

/-- One byte of a literal: printable ASCII as it is, all else as two hexadecimal digits. -/
def byte (q : Char) (b : UInt8) : List Char :=
  let c := Char.ofNat b.toNat
  match shared q c with
  | some cs => cs
  | none =>
    if 0x20 ≤ b.toNat ∧ b.toNat < 0x7f then [c] else ['\\', 'x'] ++ Text.padded 16 2 b.toNat

def bytes (bs : List UInt8) : List Char :=
  let q := quote (bs.contains 0x27) (bs.contains 0x22)
  ['b', q] ++ bs.flatMap (byte q) ++ [q]

/-- One character of a literal: printable ones as they are, all else by the shortest escape. -/
def char (q c : Char) : List Char :=
  match shared q c with
  | some cs => cs
  | none =>
    if Text.isHalf c then ['\\', 'u'] ++ Text.padded 16 4 (Text.codeOf c)
    else if Text.isPrintable c then [c]
    else if c.toNat < 0x100 then ['\\', 'x'] ++ Text.padded 16 2 c.toNat
    else if c.toNat < 0x10000 then ['\\', 'u'] ++ Text.padded 16 4 c.toNat
    else ['\\', 'U'] ++ Text.padded 16 8 c.toNat

def text (s : String) : List Char :=
  let cs := s.toList
  let q := quote (cs.contains '\'') (cs.contains '"')
  [q] ++ cs.flatMap (char q) ++ [q]

end Foreach.Literal
