import Foreach.Number.Numeral
import Foreach.Text.Base64
import Foreach.Text.Blank
import Foreach.Value.Basic
import Foreach.Yaml.Defect
import Foreach.Yaml.Tag

/-!
The values of scalars.

A scalar that is marked with a tag may be spelled more freely than one that has the tag by its spelling,
and it may not be spelled like a value of its tag at all.
-/

namespace Foreach.Yaml.Scalar

/-- The number that digits in a base stand for. -/
def digits? (base : Nat) (cs : List Char) : Option Nat :=
  if cs = [] then none
  else
    (cs.mapM fun c => (Json.hexValue c).filter (· < base)).map fun ds =>
      ds.foldl (fun n d => base * n + d) 0

/-- The digits behind the mark of their base, if it is there. -/
def dropMark (base : Nat) (cs : List Char) : List Char :=
  let mark : Char := if base = 2 then 'b' else if base = 8 then 'o' else 'x'
  match cs with
  | '0' :: c :: rest => if base != 10 && c.toLower = mark then rest else cs
  | _ => cs

/-- The most digits that a decimal number may have. -/
def mostDigits : Nat := 4300

/-- A whole number in the digits of any script, with blanks around it, a sign, and the mark of its base. -/
def whole? (base : Nat) (cs : List Char) : Option Int :=
  let (negative, body) := Text.takeSign ((Text.strip cs).map Text.commonDigit)
  if base = 10 ∧ mostDigits < body.length then none
  else (digits? base (dropMark base body)).map (Text.signed negative)

/-- The whole number that a scalar stands for. -/
def whole (cs : List Char) : Except Defect Int :=
  let text := cs.filter (· != '_')
  let (negative, body) := Text.takeSign text
  let size? : Option Int :=
    match body with
    | ['0'] => some 0
    | '0' :: 'b' :: ds => whole? 2 ds
    | '0' :: 'x' :: ds => whole? 16 ds
    | '0' :: _ => whole? 8 body
    | _ =>
      ((Text.split ':' body).mapM (whole? 10)).map fun parts =>
        parts.foldl (fun n part => 60 * n + part) 0
  if body = [] then .error .emptyNumber
  else size?.elim (.error .badScalar) fun n => .ok (if negative then -n else n)

/-- A number in the digits of any script, with blanks around it and a sign. -/
def number? (cs : List Char) : Option Binary64 :=
  let (negative, body) := Text.takeSign ((Text.strip cs).map Text.commonDigit)
  if ["inf", "infinity"].contains (String.ofList body) then some (.infinity negative)
  else if String.ofList body = "nan" then some .nan
  else if (body.head?.map fun c => c = '+' || c = '-').getD false then none
  else
    (Numeral.ofText? body).map fun n =>
      ({ n with negative } : Numeral).toBinary64

/-- The sum of parts in base sixty, the last one first; a power of sixty that is too large for a binary
number ends it. -/
def sixties (base : Nat) (sum : Binary64) : List Binary64 → Except Defect Binary64
  | [] => .ok sum
  | part :: rest =>
    if (Binary64.ofInt base).isFinite then
      sixties (60 * base) (sum.add (part.mul (.ofInt base))) rest
    else .error .tooLarge

/-- The binary number that a scalar stands for. -/
def number (cs : List Char) : Except Defect Binary64 :=
  let text := (cs.filter (· != '_')).map Char.toLower
  let (negative, body) := Text.takeSign text
  let withSign (x : Binary64) : Binary64 := if negative then x.neg else x
  if text = [] then .error .emptyNumber
  else if body = ".inf".toList then .ok (.infinity negative)
  else if body = ".nan".toList then .ok .nan
  else if body.contains ':' then
    match (Text.split ':' body).mapM number? with
    | none => .error .badScalar
    | some parts => (sixties 1 (Binary64.zero false) parts.reverse).map withSign
  else (number? body).elim (.error .badScalar) fun x => .ok (withSign x)

/-- The truth value that a scalar stands for. -/
def truth (cs : List Char) : Except Defect Bool :=
  let word := String.ofList (cs.map Char.toLower)
  if ["yes", "true", "on"].contains word then .ok true
  else if ["no", "false", "off"].contains word then .ok false
  else .error .noTruth

/-- A day and a clock reading as a moment; the fraction is cut off behind six digits. -/
def moment? (t : TimeText) (clock : Nat × Nat × Nat) : Option Moment :=
  let (hour, minute, second) := clock
  let micros := Text.numeral ((t.fraction ++ List.replicate 6 '0').take 6)
  let month := Text.numeral t.month
  let day := Text.numeral t.day
  let offset := t.zone.getD 0
  if h : Timestamp.Valid t.year month day hour minute second micros offset then
    some ⟨⟨t.year, month, day, hour, minute, second, micros, offset, h⟩, t.zone.isSome⟩
  else none

/-- The day or the moment that a scalar stands for. -/
def time (cs : List Char) : Except Defect Value :=
  match TimeText.ofText (Tag.dropLineEnd cs) with
  | none => .error .noTime
  | some t =>
    match t.clock with
    | none =>
      let date : Calendar.Date := ⟨t.year, Text.numeral t.month, Text.numeral t.day⟩
      if date.isValid then .ok (.date date) else .error .badScalar
    | some clock => (moment? t clock).elim (.error .badScalar) fun m => .ok (.moment m)

/-- The bytes that a scalar stands for. -/
def bytes (cs : List Char) : Except Defect (List UInt8) :=
  if cs.all fun c => c.toNat < 0x80 then (Base64.decode cs).elim (.error .malformed) .ok
  else .error .malformed

/-- The value of a scalar with a tag. -/
def value (tag : Tag) (cs : List Char) : Except Defect Value :=
  match tag with
  | .null => .ok .null
  | .truth => (truth cs).map .bool
  | .whole => (whole cs).map .int
  | .number => (number cs).map .float
  | .time => time cs
  | .text => .ok (.text (String.ofList cs))
  | .bytes => (bytes cs).map .bytes
  | .list | .map | .pairs | .set | .merge | .default | .unknown => .error .malformed

end Foreach.Yaml.Scalar
