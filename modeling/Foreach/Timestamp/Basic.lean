import Foreach.Text.Digits
import Foreach.Timestamp.Calendar

/-!
Points in time with an offset from UTC.

A timestamp keeps the clock reading and the offset it was written with; two timestamps are the same
instant if they agree once the offset is taken off.
-/

namespace Foreach

/-- The readings that a clock and a calendar can show, for an offset below a day. -/
def Timestamp.Valid (year month day hour minute second microsecond : Nat) (offset : Int) : Prop :=
  (1 ≤ year ∧ year ≤ 9999) ∧ (1 ≤ month ∧ month ≤ 12)
    ∧ (1 ≤ day ∧ day ≤ Calendar.daysInMonth year month)
    ∧ hour < 24 ∧ minute < 60 ∧ second < 60 ∧ microsecond < 1000000 ∧ offset.natAbs < 1440

instance (year month day hour minute second microsecond : Nat) (offset : Int) :
    Decidable (Timestamp.Valid year month day hour minute second microsecond offset) :=
  inferInstanceAs (Decidable (_ ∧ _ ∧ _ ∧ _))

/-- A calendar day, a clock reading and an offset from UTC in minutes. -/
structure Timestamp where
  year : Nat
  month : Nat
  day : Nat
  hour : Nat
  minute : Nat
  second : Nat
  microsecond : Nat
  offset : Int
  valid : Timestamp.Valid year month day hour minute second microsecond offset
  deriving DecidableEq

namespace Timestamp

/-- Microseconds since the start of 1970 in UTC. -/
def instant (t : Timestamp) : Int :=
  let days : Int := (Calendar.dayNumber ⟨t.year, t.month, t.day⟩ : Int) - Calendar.epoch
  let minutes := (days * 24 + t.hour) * 60 + t.minute - t.offset
  (minutes * 60 + t.second) * 1000000 + t.microsecond

/-- The first second of 1970. -/
def epoch : Timestamp := ⟨1970, 1, 1, 0, 0, 0, 0, 0, by decide⟩

/-- The UTC reading `seconds` after the start of 1970 and `microsecond` on, for a year from 1 to 9999. -/
def ofUnix? (seconds : Int) (microsecond : Nat) : Option Timestamp :=
  let days := seconds / 86400
  let rest := (seconds % 86400).toNat
  let number := days + Calendar.epoch
  if number < 0 then none
  else
    let date := Calendar.ofDayNumber number.toNat
    if h : Valid date.year date.month date.day (rest / 3600) (rest / 60 % 60) (rest % 60)
        microsecond 0 then
      some ⟨date.year, date.month, date.day, rest / 3600, rest / 60 % 60, rest % 60, microsecond, 0, h⟩
    else none

/-- The calendar day. -/
def date (t : Timestamp) : Calendar.Date := ⟨t.year, t.month, t.day⟩

/-- The clock reading to the second, with the microseconds if there are any. -/
def clockText (t : Timestamp) : List Char :=
  Text.padded 10 2 t.hour ++ ':' :: Text.padded 10 2 t.minute ++ ':' :: Text.padded 10 2 t.second
    ++ if t.microsecond = 0 then [] else '.' :: Text.padded 10 6 t.microsecond

/-- Day and clock reading. -/
def reading (t : Timestamp) : List Char := t.date.text ++ 'T' :: t.clockText

/-- The offset as sign, hours and minutes. -/
def offsetText (t : Timestamp) : List Char :=
  let minutes := t.offset.natAbs
  (if t.offset < 0 then '-' else '+') :: Text.padded 10 2 (minutes / 60)
    ++ ':' :: Text.padded 10 2 (minutes % 60)

/-- The offset in documents, where UTC is `Z`. -/
def offsetMark (t : Timestamp) : List Char := if t.offset = 0 then ['Z'] else t.offsetText

/-- The form in documents. -/
def document (t : Timestamp) : String := String.ofList (t.reading ++ t.offsetMark)

/-- The form for people, where UTC is `+00:00`. -/
def display (t : Timestamp) : String := String.ofList (t.reading ++ t.offsetText)

end Timestamp

/-- A clock reading that may come without an offset from UTC; then its offset is kept as zero. -/
structure Moment where
  reading : Timestamp
  isZoned : Bool
  deriving DecidableEq

namespace Moment

/-- Two moments are the same if they are one instant, or without offsets, one reading. -/
def same (a b : Moment) : Bool := a.isZoned == b.isZoned && a.reading.instant == b.reading.instant

/-- The form in documents. -/
def document (m : Moment) : List Char :=
  m.reading.reading ++ if m.isZoned then m.reading.offsetMark else []

/-- The form for people, with a blank in front of the clock reading. -/
def display (m : Moment) : List Char :=
  m.reading.date.text ++ ' ' :: m.reading.clockText
    ++ if m.isZoned then m.reading.offsetText else []

/-- The parts of the clock reading that a literal needs: seconds, unless they and the microseconds are
zero, and microseconds, unless they are zero. -/
def clockParts (t : Timestamp) : List Nat :=
  [t.hour, t.minute]
    ++ if t.microsecond ≠ 0 then [t.second, t.microsecond]
      else if t.second ≠ 0 then [t.second]
      else []

/-- An offset as days, if there are any, and seconds that are not below zero. -/
def offsetLiteral (minutes : Int) : List Char :=
  let days := minutes / 1440
  let seconds := minutes % 1440 * 60
  "datetime.timedelta(".toList ++ (if days = 0 then [] else "days=".toList ++ Text.intNumeral days)
    ++ (if days ≠ 0 ∧ seconds ≠ 0 then ", ".toList else [])
    ++ (if seconds = 0 then [] else "seconds=".toList ++ Text.intNumeral seconds) ++ [')']

/-- The form inside a list. -/
def literal (m : Moment) : List Char :=
  let t := m.reading
  let parts := [t.year, t.month, t.day] ++ clockParts t
  let zone : List Char :=
    if !m.isZoned then []
    else if t.offset = 0 then ", tzinfo=datetime.timezone.utc".toList
    else ", tzinfo=datetime.timezone(".toList ++ offsetLiteral t.offset ++ [')']
  "datetime.datetime(".toList ++ ((parts.map (Nat.toDigits 10)).intersperse [',', ' ']).flatten
    ++ zone ++ [')']

end Moment
end Foreach
