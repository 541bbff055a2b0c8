import Foreach.Value.Literal

/-!
Values as JSON documents, in two layouts: on one line, or one item a line with an indent.

Characters stand for themselves, apart from quotes, backslashes and controls; a byte string is written
as the text of its literal, a day or a moment as people read it, a tuple as a list. Keys that are null,
truth values, numbers or texts become texts. A mapping with any other key has no JSON form, and `print`
is `none` exactly for the values that hold one.
-/

namespace Foreach.Json

/-- How a document is laid out; `some n` puts each item on a line of its own, `n` blanks deeper than
its container. -/
structure Layout where
  indent : Option Nat

namespace Layout

def compact : Layout := ⟨none⟩

def indented : Layout := ⟨some 2⟩

/-- What stands before an item at this depth, and before a closing bracket. -/
def lineBreak (l : Layout) (depth : Nat) : List Char :=
  match l.indent with
  | none => []
  | some n => '\n' :: List.replicate (n * depth) ' '

/-- What stands between two items at this depth. -/
def separator (l : Layout) (depth : Nat) : List Char :=
  match l.indent with
  | none => [',', ' ']
  | some _ => ',' :: l.lineBreak depth

/-- The items of a container between its brackets; an empty container has nothing between them. -/
def enclose (l : Layout) (depth : Nat) (opening closing : Char) : List (List Char) → List Char
  | [] => [opening, closing]
  | item :: items =>
    opening :: (l.lineBreak (depth + 1) ++ item
      ++ items.flatMap (l.separator (depth + 1) ++ ·) ++ l.lineBreak depth ++ [closing])

end Layout

/-- One character inside a JSON text. -/
def escape (c : Char) : List Char :=
  if c = '"' then ['\\', '"']
  else if c = '\\' then ['\\', '\\']
  else if c = '\n' then ['\\', 'n']
  else if c = '\r' then ['\\', 'r']
  else if c = '\t' then ['\\', 't']
  else if c.toNat = 0x0c then ['\\', 'f']
  else if c.toNat = 0x08 then ['\\', 'b']
  else if c.toNat < 0x20 then ['\\', 'u'] ++ Text.padded 16 4 c.toNat
  else [c]

/-- A text in double quotes. -/
def quoted (cs : List Char) : List Char := '"' :: (cs.flatMap escape ++ ['"'])

def boolName (b : Bool) : List Char := if b then "true".toList else "false".toList

/-- The text that a key becomes. -/
def keyText : Key → Option (List Char)
  | .null => some "null".toList
  | .bool b => some (boolName b)
  | .int n => some (Text.intNumeral n)
  | .float x => some (FloatText.json.render x)
  | .text s => some s.toList
  | .bytes _ => none
  | .date _ => none
  | .moment _ => none
  | .tuple _ => none

mutual

/-- The document of a value whose container stands at `depth`. -/
def print (l : Layout) (depth : Nat) : Value → Option (List Char)
  | .null => some "null".toList
  | .bool b => some (boolName b)
  | .int n => some (Text.intNumeral n)
  | .float x => some (FloatText.json.render x)
  | .text s => some (quoted s.toList)
  | .bytes bs => some (quoted (Literal.bytes bs))
  | .date d => some (quoted d.text)
  | .moment t => some (quoted t.display)
  | .list vs => (printAll l (depth + 1) vs).map (l.enclose depth '[' ']')
  | .tuple vs => (printAll l (depth + 1) vs).map (l.enclose depth '[' ']')
  | .map es => (printEntries l (depth + 1) es).map (l.enclose depth '{' '}')

def printAll (l : Layout) (depth : Nat) : List Value → Option (List (List Char))
  | [] => some []
  | v :: vs =>
    match print l depth v, printAll l depth vs with
    | some item, some items => some (item :: items)
    | _, _ => none

def printEntries (l : Layout) (depth : Nat) : List (Key × Value) → Option (List (List Char))
  | [] => some []
  | (k, v) :: es =>
    match keyText k, print l depth v, printEntries l depth es with
    | some key, some item, some items => some ((quoted key ++ [':', ' '] ++ item) :: items)
    | _, _, _ => none

end

/-- A document on one line. -/
def compact? (v : Value) : Option String := (print .compact 0 v).map String.ofList

/-- A document with an indent of two blanks. -/
def indented? (v : Value) : Option String := (print .indented 0 v).map String.ofList

end Foreach.Json
