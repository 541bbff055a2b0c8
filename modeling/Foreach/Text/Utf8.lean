import Foreach.Text.Digits
import Foreach.Text.Half

/-!
UTF-8, as lists of bytes.

`Utf8.decode` refuses a sequence that is not well formed; `Utf8.decodeLossy` puts one replacement
character for each longest piece that could have begun a character and cannot be completed.
-/

namespace Foreach.Utf8

def encodeChar (c : Char) : List UInt8 :=
  let n := c.toNat
  let tail (unit : Nat) : UInt8 := UInt8.ofNat (0x80 + n / unit % 64)
  if n < 0x80 then [UInt8.ofNat n]
  else if n < 0x800 then [UInt8.ofNat (0xc0 + n / 64), tail 1]
  else if n < 0x10000 then [UInt8.ofNat (0xe0 + n / 4096), tail 64, tail 1]
  else [UInt8.ofNat (0xf0 + n / 262144), tail 4096, tail 64, tail 1]

def encode (cs : List Char) : List UInt8 := cs.flatMap encodeChar

/-- Why halves of characters at this position cannot be encoded. -/
def refusal (position : Nat) (halves : List Char) : String :=
  let place : String :=
    match halves with
    | [c] => "character '\\u" ++ String.ofList (Text.padded 16 4 (Text.codeOf c))
      ++ s!"' in position {position}"
    | _ => s!"characters in position {position}-{position + halves.length - 1}"
  s!"'utf-8' codec can't encode {place}: surrogates not allowed"

/-- The bytes of a text, or why it has none: no half of a character can stand in it. -/
def encode? (cs : List Char) : Except String (List UInt8) :=
  match cs.dropWhile fun c => !Text.isHalf c with
  | [] => .ok (encode cs)
  | rest => .error (refusal (cs.length - rest.length) (rest.takeWhile Text.isHalf))

/-- A half that stands for a byte which is no part of any character. -/
def isByteHalf (c : Char) : Bool :=
  Text.isHalf c && 0xdc80 ≤ Text.codeOf c && Text.codeOf c ≤ 0xdcff

/-- Why a text has no bytes even where halves may stand for bytes, if it has none. -/
def byteRefusal? (cs : List Char) : Option String :=
  match cs.dropWhile fun c => !Text.isHalf c || isByteHalf c with
  | [] => none
  | rest => some (refusal (cs.length - rest.length) (rest.takeWhile Text.isHalf))

/-- A character that has been begun: the tail bytes still owed, the range of the next byte, and the
value of the bits so far. -/
structure Partial where
  owed : Nat
  low : Nat
  high : Nat
  bits : Nat

/-- What a first byte begins: a whole character, or one with tail bytes to come. -/
inductive Lead where
  | whole (c : Char)
  | begun (p : Partial)
  | invalid

/-- The ranges after `e0`, `ed`, `f0` and `f4` keep out overlong forms, surrogates and values past the
last code point. -/
def lead (b : UInt8) : Lead :=
  let n := b.toNat
  if n < 0x80 then .whole (Char.ofNat n)
  else if n < 0xc2 then .invalid
  else if n < 0xe0 then .begun ⟨1, 0x80, 0xbf, n - 0xc0⟩
  else if n = 0xe0 then .begun ⟨2, 0xa0, 0xbf, 0⟩
  else if n = 0xed then .begun ⟨2, 0x80, 0x9f, 0xd⟩
  else if n < 0xf0 then .begun ⟨2, 0x80, 0xbf, n - 0xe0⟩
  else if n = 0xf0 then .begun ⟨3, 0x90, 0xbf, 0⟩
  else if n < 0xf4 then .begun ⟨3, 0x80, 0xbf, n - 0xf0⟩
  else if n = 0xf4 then .begun ⟨3, 0x80, 0x8f, 4⟩
  else .invalid

/-- The next tail byte of a begun character, if the byte is one. -/
def Partial.next (p : Partial) (b : UInt8) : Option (Sum Char Partial) :=
  let n := b.toNat
  if p.low ≤ n ∧ n ≤ p.high then
    let bits := p.bits * 64 + (n - 0x80)
    if p.owed ≤ 1 then some (.inl (Char.ofNat bits))
    else some (.inr ⟨p.owed - 1, 0x80, 0xbf, bits⟩)
  else none

def replacement : Char := Char.ofNat 0xfffd

/-- The characters of a byte sequence, `none` standing for each piece that is not one. -/
def pieces : Option Partial → List UInt8 → List (Option Char)
  | none, [] => []
  | some _, [] => [none]
  | none, b :: bs =>
    match lead b with
    | .whole c => some c :: pieces none bs
    | .begun p => pieces (some p) bs
    | .invalid => none :: pieces none bs
  | some p, b :: bs =>
    match p.next b with
    | some (.inl c) => some c :: pieces none bs
    | some (.inr q) => pieces (some q) bs
    | none =>
      none :: match lead b with
        | .whole c => some c :: pieces none bs
        | .begun q => pieces (some q) bs
        | .invalid => none :: pieces none bs

def decode (bs : List UInt8) : Option (List Char) := (pieces none bs).mapM id

def decodeLossy (bs : List UInt8) : List Char := (pieces none bs).map (·.getD replacement)

end Foreach.Utf8
