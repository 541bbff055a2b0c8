/-!
Places in a YAML text.

Five characters end a line, a carriage return and a line feed together ending one. A byte order mark
takes up no column.
-/

namespace Foreach.Yaml

/-- A place in a text: what is left of it, and how far it is from the start of the text and of the
line. -/
structure Cursor where
  rest : List Char
  index : Nat
  line : Nat
  column : Nat

def isBreak (c : Char) : Bool :=
  c = '\n' || c = '\r' || c.toNat = 0x85 || c.toNat = 0x2028 || c.toNat = 0x2029

def isBlank (c : Char) : Bool := c = ' ' || c = '\t'

/-- Whether a line ends here: the text is over, or a line break is next. -/
def atLineEnd : List Char → Bool
  | [] => true
  | c :: _ => isBreak c

/-- Whether a word has ended: what is next is a blank, a tab, or the end of the line. -/
def atWordEnd : List Char → Bool
  | [] => true
  | c :: _ => isBlank c || isBreak c

/-- Whether a line ends here or a blank is next; a tab is no blank. -/
def atSpace : List Char → Bool
  | [] => true
  | c :: _ => c = ' ' || isBreak c

/-- Whether the mark that ends or starts a document is next. -/
def atDocumentMark : List Char → Bool
  | '-' :: '-' :: '-' :: rest => atWordEnd rest
  | '.' :: '.' :: '.' :: rest => atWordEnd rest
  | _ => false

/-- The line break that is next, in the form in which a text keeps it, and what follows it. -/
def takeBreak : List Char → Option (Char × List Char)
  | '\r' :: '\n' :: rest => some ('\n', rest)
  | c :: rest =>
    if c.toNat = 0x2028 ∨ c.toNat = 0x2029 then some (c, rest)
    else if isBreak c then some ('\n', rest)
    else none
  | [] => none

/-- The text behind a line break, if one is next. -/
def dropBreak (cs : List Char) : List Char := ((takeBreak cs).map (·.2)).getD cs

/-- The text without blanks in front; tabs stay. -/
def dropSpaces (cs : List Char) : List Char := cs.dropWhile (· = ' ')

/-- The text up to the end of its line. -/
def lineRest (cs : List Char) : List Char := cs.takeWhile fun c => !isBreak c

def dropLine (cs : List Char) : List Char := cs.dropWhile fun c => !isBreak c

/-- A text without blanks and a comment in front. -/
def dropComment (cs : List Char) : List Char :=
  match dropSpaces cs with
  | '#' :: rest => dropLine rest
  | rest => rest

/-- The text behind a line that says nothing more, apart from a comment. -/
def endOfLine? (cs : List Char) : Option (List Char) :=
  let rest := dropComment cs
  if atLineEnd rest then some (dropBreak rest) else none

namespace Cursor

def start (cs : List Char) : Cursor := ⟨cs, 0, 0, 0⟩

/-- The place behind the next character. -/
def next (k : Cursor) : Cursor :=
  match k.rest with
  | [] => k
  | c :: rest =>
    if isBreak c && !(c = '\r' && rest.head? = some '\n') then ⟨rest, k.index + 1, k.line + 1, 0⟩
    else ⟨rest, k.index + 1, k.line, if c.toNat = 0xfeff then k.column else k.column + 1⟩

def skip (k : Cursor) : Nat → Cursor
  | 0 => k
  | n + 1 => k.next.skip n

/-- The place where only this much of the text is left. -/
def upTo (k : Cursor) (rest : List Char) : Cursor := k.skip (k.rest.length - rest.length)

end Cursor

end Foreach.Yaml
