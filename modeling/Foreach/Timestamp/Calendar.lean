import Foreach.Text.Digits

/-!
The Gregorian calendar, as day numbers.

Years run from March to February inside this module, so that a leap day is the last day of its year; day
zero is 1 March of year 0.
-/

namespace Foreach.Calendar

/-- A day of the calendar. -/
structure Date where
  year : Nat
  month : Nat
  day : Nat
  deriving DecidableEq, Repr

namespace Date

def text (d : Date) : List Char :=
  Text.padded 10 4 d.year ++ '-' :: Text.padded 10 2 d.month ++ '-' :: Text.padded 10 2 d.day

/-- The form inside a list. -/
def literal (d : Date) : List Char :=
  "datetime.date(".toList
    ++ (([d.year, d.month, d.day].map (Nat.toDigits 10)).intersperse [',', ' ']).flatten ++ [')']

end Date

def isLeap (year : Nat) : Bool := year % 4 = 0 && (year % 100 != 0 || year % 400 = 0)

def daysInMonth (year month : Nat) : Nat :=
  if month = 2 then if isLeap year then 29 else 28
  else if month = 4 ∨ month = 6 ∨ month = 9 ∨ month = 11 then 30
  else 31

/-- Whether the calendar has this day, for a year from 1 to 9999. -/
def Date.isValid (d : Date) : Bool :=
  1 ≤ d.year && d.year ≤ 9999 && 1 ≤ d.month && d.month ≤ 12 && 1 ≤ d.day
    && d.day ≤ daysInMonth d.year d.month

/-- The number of a day, for a year from 1 on. -/
def dayNumber (d : Date) : Nat :=
  let year := if d.month ≤ 2 then d.year - 1 else d.year
  let month := (d.month + 9) % 12
  365 * year + year / 4 - year / 100 + year / 400 + (153 * month + 2) / 5 + d.day - 1

/-- The day with a number. Four hundred years are 146097 days. -/
def ofDayNumber (n : Nat) : Date :=
  let cycle := n / 146097
  let rest := n % 146097
  let yearInCycle := (rest - rest / 1460 + rest / 36524 - rest / 146096) / 365
  let dayOfYear := rest - (365 * yearInCycle + yearInCycle / 4 - yearInCycle / 100)
  let month := (5 * dayOfYear + 2) / 153
  let year := yearInCycle + 400 * cycle
  ⟨if month < 10 then year else year + 1, if month < 10 then month + 3 else month - 9,
    dayOfYear - (153 * month + 2) / 5 + 1⟩

/-- The number of 1 January 1970. -/
def epoch : Nat := 719468

end Foreach.Calendar
