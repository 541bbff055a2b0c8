import Foreach.Record.Numeral
import Foreach.Text.Utf8
import Foreach.Value.Literal
import Foreach.Value.Mapping

/-!
Checks of single values of a record.

A check accepts the spellings of a value that need no guessing: a text may be given as UTF-8 bytes, a
flag as a word or as zero or one, a whole number as a numeral.
-/

namespace Foreach.Check

def text : Value → Result String
  | .text s => .ok s
  | .bytes bs =>
    match Utf8.decode bs with
    | some cs => .ok (String.ofList cs)
    | none => .error .notUtf8
  | _ => .error .notText

/-- A text, or null for none. -/
def optionalText : Value → Result (Option String)
  | .null => .ok none
  | v => (text v).map some

/-- A text in lower case, as far as ASCII goes: no other character becomes a letter of the words below. -/
def lowered (s : String) : String := String.ofList (s.toList.map Char.toLower)

def trueWords : List String := ["1", "on", "t", "true", "y", "yes"]

def falseWords : List String := ["0", "off", "f", "false", "n", "no"]

def flagOfText (s : String) : Result Bool :=
  if trueWords.contains (lowered s) then .ok true
  else if falseWords.contains (lowered s) then .ok false
  else .error .unclearBool

/-- Zero and one as flags. -/
def flagOfInt (n : Int) : Result Bool :=
  if n = 0 then .ok false else if n = 1 then .ok true else .error .unclearBool

/-- Numbers from here on, on either side, do not fit into a machine word. -/
def wordBound : Int := 0x8000000000000000

def flag : Value → Result Bool
  | .bool b => .ok b
  | .int n => if -wordBound ≤ n ∧ n < wordBound then flagOfInt n else .error .notBool
  | .float x =>
    match x.toInt? with
    | some n => if n.natAbs < wordBound.natAbs then flagOfInt n else .error .notBool
    | none => .error .notBool
  | .text s => flagOfText s
  | .bytes bs =>
    match Utf8.decode bs with
    | some cs => flagOfText (String.ofList cs)
    | none => .error .unclearBool
  | _ => .error .notBool

def whole : Value → Result Int
  | .int n => .ok n
  | .bool b => .ok b.toNat
  | .float x =>
    match x.toInt? with
    | some n => if n.natAbs < wordBound.natAbs then .ok n else .error .hugeInt
    | none => .error (if x.isFinite then .fractionalInt else .endlessInt)
  | .text s => wholeOfText s
  | .bytes bs =>
    match Utf8.decode bs with
    | some cs => wholeOfText (String.ofList cs)
    | none => .error .unclearInt
  | _ => .error .notInt

/-- A key as a step of the way into a record; a number that fits into no word is shown as a text. -/
def location : Key → Location
  | .text s => .name s
  | .bool b => .number b.toNat
  | .int n =>
    if -wordBound ≤ n ∧ n < wordBound then .number n
    else .name (String.ofList (Key.literal (.int n)))
  | k => .name (String.ofList k.literal)

/-- A value at a field. -/
def field {α : Type} (name : String) (r : Result α) : Checked α :=
  match r with
  | .ok a => .ok a
  | .error c => .error [.inField name c]

/-- A field that must be there. -/
def required {α : Type} (m : Mapping) (name : String) (check : Value → Result α) : Checked α :=
  match Mapping.getText? m name with
  | some v => field name (check v)
  | none => .error [.inField name .missing]

/-- A field that has a value if it is left out. -/
def optional {α : Type} (m : Mapping) (name : String) (fallback : α) (check : Value → Result α) :
    Checked α :=
  match Mapping.getText? m name with
  | some v => field name (check v)
  | none => .ok fallback

/-- The text of a key. -/
def key (k : Key) : Checked String :=
  match text k.toValue with
  | .ok s => .ok s
  | .error c => .error [⟨[location k, .name "[key]"], c⟩]

end Foreach.Check
