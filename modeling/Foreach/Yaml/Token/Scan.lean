import Foreach.Yaml.Token.Literal
import Foreach.Yaml.Token.Mark
import Foreach.Yaml.Token.Plain
import Foreach.Yaml.Token.Quoted

/-!
From a YAML text to its tokens.

That something is a key shows only at the colon behind it, which has to be on the same line and no more
than 1024 characters on. So the scanner remembers, for each level of brackets, the token that may turn
out to start a key, and adds the marks for keys once all tokens are known.
-/

namespace Foreach.Yaml

/-- A token that may start a key: its number, its place, and whether it has to. -/
structure PossibleKey where
  number : Nat
  required : Bool
  index : Nat
  line : Nat
  column : Nat

/-- A scanner under way. -/
structure Scanner where
  place : Cursor
  /-- How many brackets are open. -/
  level : Nat
  /-- How far the innermost block is indented; below zero outside of all blocks. -/
  indent : Int
  /-- The indentations of the blocks around it. -/
  outer : List Int
  /-- Whether a key may start here. -/
  keyAllowed : Bool
  /-- The tokens that may start a key, by level. -/
  possible : List (Nat × PossibleKey)
  /-- The tokens so far, the latest first. -/
  tokens : List Token
  count : Nat
  /-- The numbers of the tokens that do start a key, and whether a mapping begins there. -/
  keys : List (Nat × Bool)

/-- A step of a scanner. -/
abbrev Scanner.Step := Except Defect Scanner

namespace Scanner

def start (cs : List Char) : Scanner :=
  let k := Cursor.start cs
  let k := if (cs.head?.map Char.toNat) = some 0xfeff then k.next else k
  ⟨k, 0, -1, [], true, [], [], 0, []⟩

def push (s : Scanner) (t : Token) : Scanner :=
  { s with tokens := t :: s.tokens, count := s.count + 1 }

def moveTo (s : Scanner) (rest : List Char) : Scanner := { s with place := s.place.upTo rest }

def isFlow (s : Scanner) : Bool := s.level != 0

/-- Forgets the possible key of this level, which must not be one that has to be a key. -/
def dropKey (s : Scanner) : Step :=
  match s.possible.lookup s.level with
  | none => .ok s
  | some k =>
    if k.required then .error .malformed
    else .ok { s with possible := s.possible.filter fun (level, _) => level != s.level }

/-- Remembers that a key may start here. -/
def saveKey (s : Scanner) : Step :=
  if s.keyAllowed then
    s.dropKey.map fun s =>
      let required := !s.isFlow && s.indent = s.place.column
      { s with possible := (s.level, ⟨s.count, required, s.place.index, s.place.line, s.place.column⟩)
          :: s.possible }
  else .ok s

/-- Forgets the possible keys that are too far back. -/
def dropStaleKeys (s : Scanner) : Step :=
  let isStale (k : PossibleKey) : Bool :=
    k.line != s.place.line || decide (k.index + 1024 < s.place.index)
  if s.possible.any fun (_, k) => isStale k && k.required then .error .malformed
  else .ok { s with possible := s.possible.filter fun (_, k) => !isStale k }

/-- Ends the blocks that are indented further than a column. -/
def unwind (column : Int) : List Int → Scanner → Scanner
  | outer, s =>
    if s.isFlow ∨ s.indent ≤ column then s
    else
      match outer with
      | [] => s
      | i :: outer => unwind column outer ({ s with indent := i, outer }.push .blockEnd)

def unwindTo (s : Scanner) (column : Int) : Scanner := unwind column s.outer s

/-- Begins a block at a column if it is indented further, and tells whether it is. -/
def addIndent (s : Scanner) (column : Nat) : Scanner × Bool :=
  if s.indent < column then ({ s with indent := column, outer := s.indent :: s.outer }, true)
  else (s, false)

/-- Begins a block with this token at the place of the scanner, if it is indented further. -/
def openBlock (s : Scanner) (t : Token) : Scanner :=
  match s.addIndent s.place.column with
  | (s, true) => s.push t
  | (s, false) => s

/-- A token of this many characters. -/
def take (s : Scanner) (n : Nat) (t : Token) : Scanner := { s.push t with place := s.place.skip n }

/-- Ends all blocks, and forgets the key. -/
def reset (s : Scanner) : Step := (s.unwindTo (-1)).dropKey.map ({ · with keyAllowed := false })

/-- The place of the next token, blanks, comments and line breaks aside; a key may start on a new line
unless a bracket is open. -/
def skipBlanks : Nat → Scanner → Scanner
  | 0, s => s
  | fuel + 1, s =>
    let rest := dropComment s.place.rest
    match takeBreak rest with
    | none => s.moveTo rest
    | some (_, rest) => skipBlanks fuel { s.moveTo rest with keyAllowed := s.keyAllowed || !s.isFlow }

def openBracket (s : Scanner) (t : Token) : Step :=
  s.saveKey.map fun s => ({ s with level := s.level + 1, keyAllowed := true } : Scanner).take 1 t

def closeBracket (s : Scanner) (t : Token) : Step :=
  s.dropKey.map fun s => ({ s with level := s.level - 1, keyAllowed := false } : Scanner).take 1 t

def comma (s : Scanner) : Step := ({ s with keyAllowed := true } : Scanner).dropKey.map (·.take 1 .comma)

/-- The dash of an item. -/
def item (s : Scanner) : Step :=
  if s.isFlow then ({ s with keyAllowed := true } : Scanner).dropKey.map (·.take 1 .item)
  else if s.keyAllowed then
    ({ s.openBlock .blockList with keyAllowed := true } : Scanner).dropKey.map (·.take 1 .item)
  else .error .malformed

/-- The question mark of a key. -/
def key (s : Scanner) : Step :=
  if s.isFlow then ({ s with keyAllowed := false } : Scanner).dropKey.map (·.take 1 .key)
  else if s.keyAllowed then
    ({ s.openBlock .blockMap with keyAllowed := true } : Scanner).dropKey.map (·.take 1 .key)
  else .error .malformed

/-- The colon of a value, which makes the possible key of this level a key. -/
def value (s : Scanner) : Step :=
  match s.possible.lookup s.level with
  | some k =>
    let s := { s with possible := s.possible.filter fun (level, _) => level != s.level }
    let (s, begins) := if s.isFlow then (s, false) else s.addIndent k.column
    .ok (({ s with keys := (k.number, begins) :: s.keys, keyAllowed := false } : Scanner).take 1 .value)
  | none =>
    if s.isFlow then ({ s with keyAllowed := false } : Scanner).dropKey.map (·.take 1 .value)
    else if s.keyAllowed then
      ({ s.openBlock .blockMap with keyAllowed := true } : Scanner).dropKey.map (·.take 1 .value)
    else .error .malformed

/-- A token that may start a key and after which none may. -/
def whole (s : Scanner) (scan : List Char → Except Defect (Token × List Char)) : Step :=
  match s.saveKey with
  | .error d => .error d
  | .ok s =>
    (scan s.place.rest).map fun (t, rest) => ({ s with keyAllowed := false }.push t).moveTo rest

def quoted (cs : List Char) : Except Defect (Token × List Char) :=
  (Quoted.scan cs).map fun (text, rest) => (.scalar text false, rest)

/-- An anchor or an alias behind its sign. -/
def named (make : List Char → Token) (cs : List Char) : Except Defect (Token × List Char) :=
  (Mark.name (cs.drop 1)).map fun (name, rest) => (make name, rest)

def literal (s : Scanner) (fold : Bool) : Step :=
  match ({ s with keyAllowed := true } : Scanner).dropKey with
  | .error d => .error d
  | .ok s =>
    (Literal.scan fold s.indent (s.place.rest.drop 1)).map fun (text, rest) =>
      (s.push (.scalar text false)).moveTo rest

def plain (s : Scanner) : Step :=
  s.saveKey.map fun s =>
    let found := Plain.scan s.isFlow s.indent s.place
    { s.push (.scalar found.text true) with place := found.after, keyAllowed := found.isFresh }

def directive (s : Scanner) : Step :=
  match s.reset with
  | .error d => .error d
  | .ok s =>
    (Mark.directive (s.place.rest.drop 1)).map fun (t, rest) => (s.push t).moveTo rest

def documentMark (s : Scanner) (t : Token) : Step := s.reset.map (·.take 3 t)

/-- The token at the place of the scanner. -/
def token (s : Scanner) (c : Char) (rest : List Char) : Step :=
  let atMargin := s.place.column = 0
  if c = '%' ∧ atMargin then s.directive
  else if c = '-' ∧ atMargin ∧ atDocumentMark (c :: rest) then s.documentMark .documentStart
  else if c = '.' ∧ atMargin ∧ atDocumentMark (c :: rest) then s.documentMark .documentEnd
  else if c = '[' then s.openBracket .openList
  else if c = '{' then s.openBracket .openMap
  else if c = ']' then s.closeBracket .closeList
  else if c = '}' then s.closeBracket .closeMap
  else if c = ',' then s.comma
  else if c = '-' ∧ atWordEnd rest then s.item
  else if c = '?' ∧ (s.isFlow ∨ atWordEnd rest) then s.key
  else if c = ':' ∧ (s.isFlow ∨ atWordEnd rest) then s.value
  else if c = '*' then s.whole (named .alias)
  else if c = '&' then s.whole (named .anchor)
  else if c = '!' then s.whole Mark.tag
  else if c = '|' ∧ !s.isFlow then s.literal false
  else if c = '>' ∧ !s.isFlow then s.literal true
  else if c = '\'' ∨ c = '"' then s.whole quoted
  else if Plain.startsHere s.isFlow (c :: rest) then s.plain
  else .error .malformed

/-- The tokens of a scanner, with the marks for keys in their places. -/
def result (s : Scanner) : List Token :=
  s.tokens.reverse.zipIdx.flatMap fun (t, n) =>
    match s.keys.lookup n with
    | none => [t]
    | some true => [.blockMap, .key, t]
    | some false => [.key, t]

/-- The tokens of a text that breaks off with a defect. -/
def broken (s : Scanner) (d : Defect) : List Token := s.result ++ [.broken d]

/-- Scans to the end of the text. -/
def run : Nat → Scanner → List Token
  | 0, s => s.broken .malformed
  | fuel + 1, s =>
    match (skipBlanks (s.place.rest.length + 1) s).dropStaleKeys with
    | .error d => s.broken d
    | .ok s =>
      let s := s.unwindTo s.place.column
      match s.place.rest with
      | [] =>
        match s.reset with
        | .error d => s.broken d
        | .ok s => s.result
      | c :: rest =>
        match s.token c rest with
        | .error d => s.broken d
        | .ok s => run fuel s

end Scanner

/-- The tokens of a text. -/
def Token.scan (cs : List Char) : List Token := (Scanner.start cs).run (cs.length + 2)

end Foreach.Yaml
