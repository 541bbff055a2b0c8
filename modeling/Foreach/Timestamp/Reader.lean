import Foreach.Number.Numeral
import Foreach.Record.Check
import Foreach.Timestamp.Basic

/-!
Reading timestamps.

A text is a date with a time, a date alone, which is its midnight, or a number. A number counts seconds
from the start of 1970, or milliseconds if it is beyond `watershed` on either side. A time without an
offset is UTC.
-/

namespace Foreach.Timestamp

/-- The largest count that is taken for seconds. -/
def watershed : Nat := 20000000000

/-- The seconds and microseconds of a whole count. -/
def partsOfInt (count : Int) : Int × Nat :=
  if count.natAbs ≤ watershed then (count, 0) else (count / 1000, (count % 1000).toNat * 1000)

/-- The whole number nearest to a number that is not negative, a half being rounded up. -/
def nearest : Binary64 → Nat
  | .finite f => (2 * f.quanta + Binary64.unit) / (2 * Binary64.unit)
  | _ => 0

/-- The seconds and microseconds of a count. The microseconds are those above the greatest second that
is not above the count, to the nearest. -/
def partsOfFloat (count : Binary64.Finite) : Int × Nat :=
  let (perSecond, perUnit) : Nat × Nat :=
    if watershed * Binary64.unit < count.quanta then (1000, 1000) else (1, 1000000)
  let seconds := count.signedQuanta / (perSecond * Binary64.unit : Nat)
  let rest := count.signedQuanta - seconds * (perSecond * Binary64.unit : Nat)
  let micros := nearest ((Binary64.ofQuanta false rest.toNat 1).mul (.ofInt perUnit))
  (seconds + micros / 1000000, micros % 1000000)

/-- The parts of a text that is a number. One that is not whole has to have a point in front of its
exponent. -/
def partsOfText? (cs : List Char) : Option (Int × Nat) :=
  let (negative, body) := Text.takeSign cs
  match body.dropWhile Text.isDigit with
  | [] =>
    if body = [] then none else some (partsOfInt (Text.signed negative (Text.numeral body)))
  | '.' :: _ =>
    match (Numeral.ofText? cs).map Numeral.toBinary64 with
    | some (.finite f) => some (partsOfFloat f)
    | _ => none
  | _ => none

/-- The first second of year 0 and the first one of year 1. -/
def yearZero : Int × Int := (-62167219200, -62135596800)

/-- The timestamp of some seconds and microseconds in a text. Year 0 can be counted and still is no
year. -/
def ofParts (parts : Int × Nat) : Check.Result Timestamp :=
  match ofUnix? parts.1 parts.2 with
  | some t => .ok t
  | none =>
    .error (if yearZero.1 ≤ parts.1 ∧ parts.1 < yearZero.2 then .unclearTime else .unclearDate)

/-- The number of the first `n` characters, if they are digits, and the rest. -/
def takeDigits (n : Nat) (cs : List Char) : Option (Nat × List Char) :=
  let digits := cs.take n
  if digits.length = n ∧ digits.all Text.isDigit then some (Text.numeral digits, cs.drop n) else none

/-- The rest of a text that starts with this character. -/
def after (c : Char) : List Char → Option (List Char)
  | [] => none
  | d :: rest => if c = d then some rest else none

/-- `YYYY-MM-DD`. -/
def takeDate (cs : List Char) : Option (Calendar.Date × List Char) :=
  (takeDigits 4 cs).bind fun (year, r) => (after '-' r).bind fun r =>
  (takeDigits 2 r).bind fun (month, r) => (after '-' r).bind fun r =>
  (takeDigits 2 r).map fun (day, r) => (⟨year, month, day⟩, r)

/-- What may stand between date and time. -/
def isDateEnd (c : Char) : Bool := c = 'T' || c = 't' || c = ' ' || c = '_'

/-- A fraction as microseconds: the first six digits behind the point. -/
def microseconds (digits : List Char) : Nat :=
  Text.numeral ((digits ++ List.replicate 6 '0').take 6)

/-- Seconds and microseconds after the minutes, zero if they are not given. -/
def takeSeconds (cs : List Char) : Option ((Nat × Nat) × List Char) :=
  match cs with
  | ':' :: r =>
    (takeDigits 2 r).bind fun (second, r) =>
      match r with
      | [] => some ((second, 0), [])
      | c :: digits =>
        if c = '.' ∨ c = ',' then
          match digits.takeWhile Text.isDigit with
          | [] => none
          | fraction => some ((second, microseconds fraction), digits.dropWhile Text.isDigit)
        else some ((second, 0), c :: digits)
  | cs => some ((0, 0), cs)

/-- A minus sign, as it is typed or as it is printed. -/
def isMinus (c : Char) : Bool := c = '-' || c.toNat = 0x2212

/-- The offset at the end of a time, in minutes. -/
def offset? (cs : List Char) : Option Int :=
  match cs with
  | [] => some 0
  | ['Z'] => some 0
  | ['z'] => some 0
  | sign :: r =>
    if sign = '+' ∨ isMinus sign then
      (takeDigits 2 r).bind fun (hours, r) =>
        (takeDigits 2 ((after ':' r).getD r)).bind fun (minutes, r) =>
          if r = [] ∧ minutes < 60 ∧ hours < 24 then
            let total : Int := hours * 60 + minutes
            some (if isMinus sign then -total else total)
          else none
    else none

/-- A clock reading with its offset. -/
structure Clock where
  hour : Nat
  minute : Nat
  second : Nat
  microsecond : Nat
  offset : Int

def clock? (cs : List Char) : Option Clock :=
  (takeDigits 2 cs).bind fun (hour, r) => (after ':' r).bind fun r =>
  (takeDigits 2 r).bind fun (minute, r) => (takeSeconds r).bind fun ((second, micros), r) =>
  (offset? r).map fun offset => ⟨hour, minute, second, micros, offset⟩

/-- The clock reading of a text that starts with a date; midnight in UTC after the date alone. -/
def clockAfterDate (cs : List Char) : Option Clock :=
  match cs with
  | [] => some ⟨0, 0, 0, 0, 0⟩
  | c :: r => if isDateEnd c then clock? r else none

/-- A date and time; year 0 is written correctly and still is no year. -/
def ofDateText (cs : List Char) : Check.Result (Option Timestamp) :=
  match takeDate cs with
  | none => .ok none
  | some (date, r) =>
    match clockAfterDate r with
    | none => .ok none
    | some c =>
      if h : Valid date.year date.month date.day c.hour c.minute c.second c.microsecond c.offset then
        .ok (some ⟨date.year, date.month, date.day, c.hour, c.minute, c.second, c.microsecond,
          c.offset, h⟩)
      else if date.year = 0 ∧ Valid 400 date.month date.day c.hour c.minute c.second c.microsecond
          c.offset then
        .error .unclearTime
      else .ok none

def ofText (cs : List Char) : Check.Result Timestamp :=
  match ofDateText cs with
  | .error c => .error c
  | .ok (some t) => .ok t
  | .ok none => (partsOfText? cs).elim (.error .unclearDate) ofParts

/-- The timestamp of a number that is not in a text. -/
def ofNumber (parts : Int × Nat) : Check.Result Timestamp :=
  (ofUnix? parts.1 parts.2).elim (.error .unclearTime) .ok

/-- A timestamp in a record: a text, UTF-8 bytes, or a number. -/
def check : Value → Check.Result Timestamp
  | .text s => ofText s.toList
  | .bytes bs => ofText (Utf8.decodeLossy bs)
  | .int n => ofNumber (partsOfInt n)
  | .float (.finite f) => ofNumber (partsOfFloat f)
  | .float _ => .error .unclearTime
  | _ => .error .notTime

end Foreach.Timestamp
