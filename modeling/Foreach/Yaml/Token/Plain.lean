import Foreach.Yaml.Token.Basic

/-!
Scalars without quotes.

A plain scalar ends at a colon that ends a word, at a comment, and, between brackets, at a comma, a
bracket or a question mark. It may go on over several lines as long as they are indented deeply enough;
a line break counts as a blank, and further ones for themselves.
-/

namespace Foreach.Yaml.Plain

/-- Characters with a meaning of their own between brackets. -/
def isBracket (c : Char) : Bool := c = '[' || c = ']' || c = '{' || c = '}'

/-- Whether a colon in front of this text ends a scalar. -/
def endsKey (flow : Bool) (cs : List Char) : Bool :=
  atWordEnd cs || (flow && (cs.head?.map fun c => c = ',' || isBracket c).getD false)

/-- The characters up to a blank or the end of the scalar, and what follows them. -/
def word (flow : Bool) : List Char → List Char × List Char
  | [] => ([], [])
  | c :: rest =>
    if isBlank c || isBreak c || (c = ':' && endsKey flow rest)
        || (flow && (c = ',' || c = '?' || isBracket c)) then
      ([], c :: rest)
    else
      let (more, rest) := word flow rest
      (c :: more, rest)

/-- The line breaks that are next, blanks around them aside; none if the mark of a document is among
them. -/
def breaks : Nat → List Char → Option (List Char) × List Char
  | 0, cs => (none, cs)
  | fuel + 1, cs =>
    if atDocumentMark cs then (none, cs)
    else
      let rest := dropSpaces cs
      match takeBreak rest with
      | none => (some [], rest)
      | some (c, rest) =>
        let (more, rest) := breaks fuel rest
        (more.map (c :: ·), rest)

/-- What stands between two words: the text that it counts as, none where the scalar has to end, and
whether it goes over a line break. -/
def gap (cs : List Char) : Option (List Char) × Bool × List Char :=
  let blanks := cs.takeWhile (· = ' ')
  let rest := dropSpaces cs
  match takeBreak rest with
  | none => (if blanks.isEmpty then none else some blanks, false, rest)
  | some (c, rest) =>
    match breaks (rest.length + 1) rest with
    | (none, rest) => (none, true, rest)
    | (some more, rest) =>
      (some (if c != '\n' then c :: more else if more.isEmpty then [' '] else more), true, rest)

/-- A plain scalar, the place behind it, and whether that is at the start of a line. -/
structure Found where
  text : List Char
  after : Cursor
  isFresh : Bool

/-- The words of a scalar from here on, `before` being what stands in front of them. -/
def words (flow : Bool) (indent : Int) : Nat → Cursor → Bool → List Char → Found
  | 0, k, isFresh, _ => ⟨[], k, isFresh⟩
  | fuel + 1, k, isFresh, before =>
    if k.rest.head? = some '#' then ⟨[], k, isFresh⟩
    else
      match word flow k.rest with
      | ([], _) => ⟨[], k, isFresh⟩
      | (text, rest) =>
        let (between, broken, rest) := gap rest
        let k := k.upTo rest
        match between with
        | none => ⟨before ++ text, k, broken⟩
        | some between =>
          if k.rest.head? = some '#' ∨ (!flow ∧ (k.column : Int) < indent) then
            ⟨before ++ text, k, broken⟩
          else
            let found := words flow indent fuel k broken between
            { found with text := before ++ text ++ found.text }

/-- The plain scalar at a place in a block that is indented this far. -/
def scan (flow : Bool) (outer : Int) (k : Cursor) : Found :=
  words flow (outer + 1) (k.rest.length + 1) k false []

/-- Whether a plain scalar starts here. -/
def startsHere (flow : Bool) (cs : List Char) : Bool :=
  match cs with
  | [] => false
  | c :: rest =>
    if c = '-' then !atWordEnd rest
    else if c = '?' || c = ':' then !flow && !atWordEnd rest
    else
      !(isBlank c || isBreak c || isBracket c
        || [',', '#', '&', '*', '!', '|', '>', '\'', '"', '%', '@', Char.ofNat 0x60].contains c)

end Foreach.Yaml.Plain
