import Foreach.Json.Token
import Foreach.Text.Split

/-!
Tags: the kinds of value that a node can stand for.

A scalar that is not quoted shows by its spelling what it is: nothing, a truth value, a number, a day, a
point in time, or else a text. A number needs a point to be a binary one, and an exponent needs a sign.
-/

namespace Foreach.Yaml

/-- What a node stands for. -/
inductive Tag where
  | null
  | truth
  | whole
  | number
  | time
  | text
  | bytes
  | list
  | map
  /-- A list of pairs, written as a list of mappings of one entry each. -/
  | pairs
  /-- The keys of a mapping. -/
  | set
  /-- The key of entries that come from other mappings. -/
  | merge
  /-- The key of the value that a mapping stands for as a whole. -/
  | default
  | unknown
  deriving DecidableEq, Repr

namespace Tag

/-- What the names of the common tags start with. -/
def standard : String := "tag:yaml.org,2002:"

/-- The common tags, by the rest of their names. -/
def names : List (String × Tag) :=
  [("null", .null), ("bool", .truth), ("int", .whole), ("float", .number), ("timestamp", .time),
    ("str", .text), ("binary", .bytes), ("seq", .list), ("map", .map), ("omap", .pairs),
    ("pairs", .pairs), ("set", .set), ("merge", .merge), ("value", .default)]

/-- The tag with a name. -/
def ofName (name : List Char) : Tag :=
  match Json.afterWord standard.toList name with
  | none => .unknown
  | some rest => (names.lookup (String.ofList rest)).getD .unknown

def nullWords : List String := ["", "~", "null", "Null", "NULL"]

def truthWords : List String :=
  ["yes", "Yes", "YES", "no", "No", "NO", "true", "True", "TRUE", "false", "False", "FALSE", "on",
    "On", "ON", "off", "Off", "OFF"]

def isGrouped (p : Char → Bool) (cs : List Char) : Bool := cs.all fun c => p c || c = '_'

/-- A digit, and then digits and underscores. -/
def isDigits (cs : List Char) : Bool :=
  (cs.head?.map Text.isDigit).getD false && isGrouped Text.isDigit cs

/-- A part of a number in base sixty, behind its colon. -/
def isSixtieth : List Char → Bool
  | [c] => Text.isDigit c
  | [c, d] => '0' ≤ c && c ≤ '5' && Text.isDigit d
  | _ => false

/-- A number in base sixty, of two parts at least. -/
def isSixties (cs : List Char) : Bool :=
  match Text.split ':' cs with
  | first :: second :: rest => isDigits first && (second :: rest).all isSixtieth
  | _ => false

def isWhole (cs : List Char) : Bool :=
  match (Text.takeSign cs).2 with
  | [] => false
  | ['0'] => true
  | '0' :: 'b' :: ds => ds != [] && isGrouped (fun c => c = '0' || c = '1') ds
  | '0' :: 'x' :: ds => ds != [] && isGrouped (fun c => (Json.hexValue c).isSome) ds
  | '0' :: ds => isGrouped (fun c => '0' ≤ c && c ≤ '7') ds
  | ds => isDigits ds || isSixties ds

/-- The exponent of a number, or nothing. -/
def isExponent : List Char → Bool
  | [] => true
  | mark :: sign :: ds =>
    (mark = 'e' || mark = 'E') && (sign = '+' || sign = '-') && ds != [] && ds.all Text.isDigit
  | [_] => false

/-- The text from the first point on. -/
def fromPoint (cs : List Char) : List Char := cs.dropWhile (· != '.')

/-- What follows the point and the digits behind it. -/
def afterFraction (cs : List Char) : List Char :=
  (cs.drop 1).dropWhile fun c => Text.isDigit c || c = '_'

/-- A number with a point. -/
def isPointed (cs : List Char) : Bool :=
  match fromPoint cs with
  | [] => false
  | tail =>
    match (Text.takeSign (cs.takeWhile (· != '.'))).2 with
    | [] => cs.head? = some '.' && isDigits (tail.drop 1 |>.takeWhile fun c => c != 'e' && c != 'E')
      && isExponent (afterFraction tail)
    | front => (isDigits front && isExponent (afterFraction tail))
      || (isSixties front && afterFraction tail = [])

def infinityWords : List String := [".inf", ".Inf", ".INF"]

def nanWords : List String := [".nan", ".NaN", ".NAN"]

def isNumber (cs : List Char) : Bool :=
  isPointed cs || infinityWords.contains (String.ofList (Text.takeSign cs).2)
    || nanWords.contains (String.ofList cs)

end Tag

/-- A day, and a clock reading if there is one, as they are spelled. -/
structure TimeText where
  year : Nat
  month : List Char
  day : List Char
  clock : Option (Nat × Nat × Nat)
  fraction : List Char
  /-- The distance from UTC in minutes, if it is given. -/
  zone : Option Int

namespace TimeText

/-- The first characters of a text if they are digits, `least` at least and two at most. -/
def digits (least : Nat) (cs : List Char) : Option (List Char × List Char) :=
  let ds := (cs.take 2).takeWhile Text.isDigit
  if least ≤ ds.length then some (ds, cs.drop ds.length) else none

/-- The rest of a text that starts with this character. -/
def after (c : Char) : List Char → Option (List Char)
  | [] => none
  | d :: rest => if c = d then some rest else none

/-- A distance from UTC, or nothing. -/
def zone? (cs : List Char) : Option (Option Int) :=
  match cs.dropWhile fun c => c = ' ' || c = '\t' with
  | [] => if cs = [] then some none else none
  | ['Z'] => some (some 0)
  | sign :: rest =>
    if sign = '+' ∨ sign = '-' then
      (digits 1 rest).bind fun (hours, rest) =>
        let minutes? : Option Nat :=
          match rest with
          | [] => some 0
          | ':' :: rest =>
            match digits 2 rest with
            | some (minutes, []) => some (Text.numeral minutes)
            | _ => none
          | _ => none
        minutes?.map fun minutes =>
          let total : Int := Text.numeral hours * 60 + minutes
          some (if sign = '-' then -total else total)
    else none

/-- A clock reading, with a fraction and a distance from UTC. -/
def clock? (cs : List Char) : Option ((Nat × Nat × Nat) × List Char × Option Int) :=
  (digits 1 cs).bind fun (hour, r) => (after ':' r).bind fun r =>
  (digits 2 r).bind fun (minute, r) => (after ':' r).bind fun r =>
  (digits 2 r).bind fun (second, r) =>
    let (fraction, r) := match r with
      | '.' :: r => (r.takeWhile Text.isDigit, r.dropWhile Text.isDigit)
      | r => ([], r)
    (zone? r).map fun zone =>
      ((Text.numeral hour, Text.numeral minute, Text.numeral second), fraction, zone)

/-- What may stand between a day and a clock reading. -/
def dropGap (cs : List Char) : Option (List Char) :=
  match cs with
  | 'T' :: rest => some rest
  | 't' :: rest => some rest
  | c :: _ => if c = ' ' ∨ c = '\t' then some (cs.dropWhile fun c => c = ' ' || c = '\t') else none
  | [] => none

/-- A day, alone or with a clock reading. -/
def ofText (cs : List Char) : Option TimeText :=
  let year := cs.take 4
  if year.length = 4 ∧ year.all Text.isDigit then
    (after '-' (cs.drop 4)).bind fun r => (digits 1 r).bind fun (month, r) =>
    (after '-' r).bind fun r => (digits 1 r).bind fun (day, r) =>
      if r = [] then some ⟨Text.numeral year, month, day, none, [], none⟩
      else
        (dropGap r).bind fun r => (clock? r).map fun (clock, fraction, zone) =>
          ⟨Text.numeral year, month, day, some clock, fraction, zone⟩
  else none

/-- Whether the text is a time by its spelling alone: a day alone has two digits for each part. -/
def isPlain (t : TimeText) : Bool :=
  t.clock.isSome || (t.month.length = 2 && t.day.length = 2)

end TimeText

/-- The text without one line end that closes it; a line end alone stays. -/
def Tag.dropLineEnd : List Char → List Char
  | [] => []
  | [c] => [c]
  | [c, '\n'] => [c]
  | c :: rest => c :: dropLineEnd rest

/-- What a scalar that is not quoted stands for, by its spelling. -/
def Tag.ofPlain (text : List Char) : Tag :=
  let cs := dropLineEnd text
  let s := String.ofList cs
  if nullWords.contains s then .null
  else if truthWords.contains s then .truth
  else if isNumber cs then .number
  else if isWhole cs then .whole
  else if s = "<<" then .merge
  else if ((TimeText.ofText cs).map TimeText.isPlain).getD false then .time
  else if s = "=" then .default
  else if s = "!" ∨ s = "&" ∨ s = "*" then .unknown
  else .text

end Foreach.Yaml
