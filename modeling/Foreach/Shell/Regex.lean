import Foreach.Shell.Glob
import Foreach.Text.Digits
import Foreach.Text.Utf8

/-!
Patterns for parts of lines.

There are two spellings: in the basic one, the signs for groups, alternatives and most repetitions have a
backslash in front of them, in the extended one they have none. Of all matches at a place the longest
counts.
-/

namespace Foreach.Shell

/-- What one character has to be. -/
inductive Atom where
  | char (c : Char)
  | any
  | set (negated : Bool) (ranges : List (Char × Char))
  deriving DecidableEq, Repr

/-- A place between characters, as for words: letters, digits and low lines. -/
inductive Edge where
  | wordStart
  | wordEnd
  | boundary
  | within
  /-- No part of a word is in front. -/
  | clearBefore
  /-- No part of a word is behind. -/
  | clearAfter
  deriving DecidableEq, Repr

/-- Whether a place is of a kind, the character in front of it and the one behind it being parts of words or
not. -/
def Edge.holds (before after : Bool) : Edge → Bool
  | .wordStart => !before && after
  | .wordEnd => before && !after
  | .boundary => before != after
  | .within => before == after
  | .clearBefore => !before
  | .clearAfter => !after

inductive Regex where
  | nothing
  | atom (a : Atom)
  | start
  | stop
  | edge (e : Edge)
  | both (first second : Regex)
  | either (first second : Regex)
  | repeated (least : Nat) (most : Option Nat) (r : Regex)
  | group (number : Nat) (r : Regex)
  /-- The text that a group has matched. -/
  | again (number : Nat)
  deriving Repr

namespace Regex

/-! ### Matching -/

/-- A place in a line: how many characters are before it and which is the last of them, the rest, and what
the groups have matched, the latest first. -/
structure Spot where
  seen : Nat
  prior : Option Char
  rest : List Char
  groups : List (Nat × List Char)

def inRanges (ranges : List (Char × Char)) (c : Char) : Bool :=
  ranges.any fun (low, high) => low ≤ c && c ≤ high

def isWordChar (c : Char) : Bool := c.isAlphanum || c = '_' || 128 ≤ c.toNat

/-- Whether a character is what it has to be. -/
def fits (ignoreCase : Bool) (a : Atom) (c : Char) : Bool :=
  match a with
  | .char d => c = d || (ignoreCase && c.toLower = d.toLower)
  | .any => true
  | .set negated ranges =>
    (inRanges ranges c
      || (ignoreCase && (inRanges ranges c.toLower || inRanges ranges c.toUpper))) != negated

/-- The places after a step has been taken as often as allowed, more often first. -/
def repeats (step : Spot → List Spot) : Nat → Nat → Option Nat → Spot → List Spot
  | 0, least, _, s => if least = 0 then [s] else []
  | fuel + 1, least, most, s =>
    let further := if most = some 0 then [] else
      (step s).flatMap fun t =>
        if t.seen = s.seen ∧ least = 0 then []
        else repeats step fuel (least - 1) (most.map (· - 1)) t
    further ++ if least = 0 then [s] else []

/-- The places where a match that begins here can end. -/
def ends (ignoreCase : Bool) : Regex → Spot → List Spot
  | .nothing, s => [s]
  | .atom a, s =>
    match s.rest with
    | [] => []
    | c :: cs => if fits ignoreCase a c then [{ s with seen := s.seen + 1, prior := some c, rest := cs }] else []
  | .start, s => if s.seen = 0 then [s] else []
  | .stop, s => if s.rest.isEmpty then [s] else []
  | .edge e, s =>
    if e.holds (s.prior.any isWordChar) (s.rest.head?.any isWordChar) then [s] else []
  | .both a b, s => (ends ignoreCase a s).flatMap (ends ignoreCase b)
  | .either a b, s => ends ignoreCase a s ++ ends ignoreCase b s
  | .repeated least most r, s =>
    repeats (ends ignoreCase r) (s.rest.length + least + 1) least most s
  | .group number r, s =>
    (ends ignoreCase r s).map fun t =>
      { t with groups := (number, s.rest.take (t.seen - s.seen)) :: t.groups }
  | .again number, s =>
    let text := (s.groups.lookup number).getD []
    if isIn ignoreCase text s.rest then
      [{ s with
        seen := s.seen + text.length
        prior := text.getLast? <|> s.prior
        rest := s.rest.drop text.length }]
    else []
where
  isIn (ignoreCase : Bool) (text rest : List Char) : Bool :=
    text.isPrefixOf rest
      || (ignoreCase && (text.map Char.toLower).isPrefixOf (rest.map Char.toLower))

/-- Of two places the one further on; of places alike the first. -/
def later (best : Option Spot) (s : Spot) : Option Spot :=
  match best with
  | none => some s
  | some b => if b.seen < s.seen then some s else some b

/-- The end of the longest match that begins at a place. -/
def longest (r : Regex) (ignoreCase : Bool) (s : Spot) : Option Spot :=
  (ends ignoreCase r s).foldl later none

/-- The first match from a place on: the text before it, the match, and its end. -/
def findFrom (r : Regex) (ignoreCase : Bool) (seen : Nat) (prior : Option Char) :
    List Char → Option (List Char × List Char × Spot)
  | [] => (longest r ignoreCase ⟨seen, prior, [], []⟩).map fun t => ([], [], t)
  | c :: cs =>
    match longest r ignoreCase ⟨seen, prior, c :: cs, []⟩ with
    | some t => some ([], (c :: cs).take (t.seen - seen), t)
    | none =>
      (findFrom r ignoreCase (seen + 1) (some c) cs).map fun (before, found, t) => (c :: before, found, t)

/-- Whether a line has a match. -/
def isIn (r : Regex) (ignoreCase : Bool) (cs : List Char) : Bool :=
  (r.findFrom ignoreCase 0 none cs).isSome

/-! ### Reading -/

/-- How patterns are spelled. -/
structure Spelling where
  extended : Bool
  /-- Letters behind a backslash stand for signs such as line ends, and a closing parenthesis without an
  opening one is an error, as in scripts. -/
  script : Bool

/-- What is wrong with a pattern. -/
inductive Defect where
  | vacantSet
  | openSet
  | openGroup
  | closedGroup
  | openBounds
  | bounds
  | reference
  | backslash
  | className
  | range
  deriving DecidableEq, Repr

def Defect.message : Defect → String
  | .vacantSet => "Invalid regular expression"
  | .openSet => "Unmatched [, [^, [:, [., or [="
  | .openGroup => "Unmatched ( or \\("
  | .closedGroup => "Unmatched ) or \\)"
  | .openBounds => "Unmatched \\\x7b"
  | .bounds => "Invalid content of \\\x7b\\\x7d"
  | .reference => "Invalid back reference"
  | .backslash => "Trailing backslash"
  | .className => "Invalid character class name"
  | .range => "Invalid range end"

/-- A character in a set, with the escapes of scripts, and what is behind it. -/
def member (script : Bool) (c : Char) (rest : List Char) : Char × List Char :=
  match c, rest with
  | '\\', 'n' :: rest => if script then ('\n', rest) else (c, 'n' :: rest)
  | '\\', 't' :: rest => if script then ('\t', rest) else (c, 't' :: rest)
  | '\\', ']' :: rest => (c, ']' :: rest)
  | '[', '.' :: d :: '.' :: ']' :: rest => (d, rest)
  | c, rest => (c, rest)

/-- The ranges up to a closing bracket, and what is behind it; `fuel` is more than the length. -/
def ranges (script : Bool) : Nat → List Char → Except Defect (List (Char × Char) × List Char)
  | 0, _ => .error .openSet
  | _, [] => .error .openSet
  | fuel + 1, c :: rest =>
    if c = ']' then .ok ([], rest)
    else if c = '[' ∧ rest.head? = some ':' then
      let name := (rest.drop 1).takeWhile Char.isAlpha
      match rest.drop (name.length + 1) with
      | ':' :: ']' :: behind =>
        if (Glob.classRanges (String.ofList name)).isEmpty then .error .className
        else
          (ranges script fuel behind).map fun (rs, r) => (Glob.classRanges (String.ofList name) ++ rs, r)
      | _ => .error .openSet
    else if c = '[' ∧ rest.head? = some '=' ∧ (rest.drop 2).take 2 = ['=', ']'] then
      let d := (rest.drop 1).headD c
      (ranges script fuel (rest.drop 4)).map fun (rs, r) => ((d, d) :: rs, r)
    else
      let (a, behind) := member script c rest
      match behind with
      | '-' :: b :: after =>
        if b = ']' then (ranges script fuel behind).map fun (rs, r) => ((a, a) :: rs, r)
        else
          let (b, after) := member script b after
          if b < a then .error .range
          else (ranges script fuel after).map fun (rs, r) => ((a, b) :: rs, r)
      | behind => (ranges script fuel behind).map fun (rs, r) => ((a, a) :: rs, r)

/-- A set behind its opening bracket, and what is behind it. -/
def readSet (script : Bool) (cs : List Char) : Except Defect (Atom × List Char) :=
  let negated := cs.head? = some '^'
  let body := if negated then cs.drop 1 else cs
  match body with
  | [] => .error .vacantSet
  | ']' :: rest =>
    match rest with
    | '-' :: b :: after =>
      if b = ']' then
        (ranges script (rest.length + 1) rest).map fun (rs, r) => (.set negated ((']', ']') :: rs), r)
      else (ranges script (after.length + 1) after).map fun (rs, r) => (.set negated ((']', b) :: rs), r)
    | rest => (ranges script (rest.length + 1) rest).map fun (rs, r) => (.set negated ((']', ']') :: rs), r)
  | body => (ranges script (body.length + 1) body).map fun (rs, r) => (.set negated rs, r)

/-- A sign of the language that takes a backslash in the basic spelling only. -/
def sign? (extended : Bool) (cs : List Char) : Option (Char × List Char) :=
  match cs with
  | '\\' :: c :: rest => if !extended && "()|+?\x7b\x7d".toList.contains c then some (c, rest) else none
  | c :: rest => if extended && "()|+?\x7b\x7d".toList.contains c then some (c, rest) else none
  | [] => none

/-- The bounds between braces: the least and the most, and what is behind them. -/
def bounds (extended : Bool) (cs : List Char) : Except Defect (Nat × Option Nat × List Char) :=
  let least := cs.takeWhile Text.isDigit
  let rest := cs.drop least.length
  let (most, rest) : Option Nat × List Char := match rest with
    | ',' :: rest =>
      let digits := rest.takeWhile Text.isDigit
      (if digits.isEmpty then none else some (Text.numeral digits), rest.drop digits.length)
    | rest => (some (Text.numeral least), rest)
  match sign? extended rest with
  | some ('\x7d', behind) =>
    if (cs.head?.any fun c => c = ',' || Text.isDigit c) && most.all (Text.numeral least ≤ ·) then
      .ok (Text.numeral least, most, behind)
    else .error .bounds
  | _ => .error (if rest.isEmpty then .openBounds else .bounds)

/-- Whether braces behind this hold bounds; in the extended spelling others stand for themselves. -/
def hasBounds (extended : Bool) (cs : List Char) : Bool :=
  !extended || match cs.dropWhile fun c => Text.isDigit c || c = ',' with
    | '\x7d' :: _ => cs.head? ≠ some '\x7d'
    | _ => false

/-- A pattern with the repetitions behind it. -/
def repetitions (extended : Bool) : Nat → Regex → List Char → Except Defect (Regex × List Char)
  | 0, r, cs => .ok (r, cs)
  | fuel + 1, r, cs =>
    match cs with
    | '*' :: rest => repetitions extended fuel (.repeated 0 none r) rest
    | cs =>
      match sign? extended cs with
      | some ('+', rest) => repetitions extended fuel (.repeated 1 none r) rest
      | some ('?', rest) => repetitions extended fuel (.repeated 0 (some 1) r) rest
      | some ('\x7b', rest) =>
        if hasBounds extended rest then do
          let (least, most, rest) ← bounds extended rest
          repetitions extended fuel (.repeated least most r) rest
        else .ok (r, cs)
      | _ => .ok (r, cs)

/-- Whether a dollar sign in front of this stands for the end of the line. -/
def isLast (extended : Bool) (cs : List Char) : Bool :=
  cs.isEmpty || extended ||
    (match sign? extended cs with
      | some (c, _) => c = ')' || c = '|'
      | none => false)

/-- What a letter behind a backslash stands for. -/
def escaped (script : Bool) (d : Char) : Regex :=
  let word : List (Char × Char) := [('A', 'Z'), ('a', 'z'), ('0', '9'), ('_', '_')]
  if d = 'w' then .atom (.set false word)
  else if d = 'W' then .atom (.set true word)
  else if d = 's' then .atom (.set false (Glob.classRanges "space"))
  else if d = 'S' then .atom (.set true (Glob.classRanges "space"))
  else if d = 'b' then .edge .boundary
  else if d = 'B' then .edge .within
  else if d = '<' then .edge .wordStart
  else if d = '>' then .edge .wordEnd
  else if d = Char.ofNat 0x60 then .start
  else if d = '\'' then .stop
  else if script && d = 'n' then .atom (.char '\n')
  else if script && d = 't' then .atom (.char '\t')
  else .atom (.char d)

/-- A pattern that has been read, what is behind it, and how many groups there are so far. -/
abbrev Progress := Except Defect (Regex × List Char × Nat)

mutual

/-- Alternatives; `depth` tells how many groups are open. -/
def readEither (s : Spelling) : Nat → Nat → Nat → List Char → Progress
  | 0, _, groups, cs => .ok (.nothing, cs, groups)
  | fuel + 1, depth, groups, cs => do
    let (a, rest, groups) ← readRow s fuel depth true groups cs
    match sign? s.extended rest with
    | some ('|', rest) =>
      let (b, rest, groups) ← readEither s fuel depth groups rest
      return (.either a b, rest, groups)
    | _ => return (a, rest, groups)

/-- Patterns in a row; `first` tells whether nothing stands in front of them. -/
def readRow (s : Spelling) : Nat → Nat → Bool → Nat → List Char → Progress
  | 0, _, _, groups, cs => .ok (.nothing, cs, groups)
  | _, _, _, groups, [] => .ok (.nothing, [], groups)
  | fuel + 1, depth, first, groups, c :: cs =>
    let goOn : Progress := do
      let (r, rest, groups) ← readOne s fuel depth first groups c cs
      let (r, rest) ← if c = '^' ∧ first then .ok (r, rest) else repetitions s.extended fuel r rest
      let (more, rest, groups) ← readRow s fuel depth (c = '^' && first) groups rest
      return (.both r more, rest, groups)
    match sign? s.extended (c :: cs) with
    | some (')', _) =>
      if 0 < depth then .ok (.nothing, c :: cs, groups)
      else if s.extended && !s.script then goOn
      else .error .closedGroup
    | some ('|', _) => .ok (.nothing, c :: cs, groups)
    | some (sign, rest) =>
      if first && s.extended && (sign = '+' || sign = '?') then readRow s fuel depth true groups rest
      else goOn
    | none => if c = '*' && first && s.extended then readRow s fuel depth true groups cs else goOn

/-- A single pattern, `c` being the character that it begins with. -/
def readOne (s : Spelling) : Nat → Nat → Bool → Nat → Char → List Char → Progress
  | 0, _, _, groups, _, cs => .ok (.nothing, cs, groups)
  | fuel + 1, depth, first, groups, c, cs =>
    match sign? s.extended (c :: cs) with
    | some ('(', rest) => do
      let number := groups + 1
      let (r, rest, groups) ← readEither s fuel (depth + 1) number rest
      match sign? s.extended rest with
      | some (')', rest) => return (.group number r, rest, groups)
      | _ => .error .openGroup
    | some (d, rest) => .ok (.atom (.char d), rest, groups)
    | none =>
      if c = '^' ∧ (first ∨ s.extended) then .ok (.start, cs, groups)
      else if c = '$' ∧ isLast s.extended cs then .ok (.stop, cs, groups)
      else if c = '.' then .ok (.atom .any, cs, groups)
      else if c = '[' then (readSet s.script cs).map fun (a, rest) => (.atom a, rest, groups)
      else if c = '\\' then
        match cs with
        | [] => .error .backslash
        | d :: rest =>
          if '1' ≤ d ∧ d ≤ '9' then
            let number := d.toNat - '0'.toNat
            if number ≤ groups then .ok (.again number, rest, groups) else .error .reference
          else .ok (escaped s.script d, rest, groups)
      else .ok (.atom (.char c), cs, groups)

end

/-- The pattern that a text denotes, and how many groups it has. -/
def read (s : Spelling) (cs : List Char) : Except Defect (Regex × Nat) :=
  (readEither s (4 * cs.length + 4) 0 0 cs).map fun (r, _, groups) => (r, groups)

/-- The pattern of a text that stands for itself. -/
def ofFixed (cs : List Char) : Regex :=
  cs.foldr (fun c r => .both (.atom (.char c)) r) .nothing

/-- The pattern for whole lines. -/
def whole (r : Regex) : Regex := .both .start (.both r .stop)

/-- The pattern for whole words. -/
def wholeWord (r : Regex) : Regex := .both (.edge .clearBefore) (.both r (.edge .clearAfter))

end Regex

/-- The number of the character that stands for a byte which is no part of a character, less the byte. -/
def strayByte : Nat := 0x10ff00

/-- The characters of a text given by its bytes. -/
def wide (cs : List Char) : List Char :=
  if cs.all fun c => c.toNat < 128 then cs
  else
    match Utf8.decode (cs.map fun c => UInt8.ofNat c.toNat) with
    | some decoded => decoded
    | none => cs.map fun c => if c.toNat < 128 then c else Char.ofNat (strayByte + c.toNat)

/-- The bytes of characters. -/
def narrow (cs : List Char) : List Char :=
  cs.flatMap fun c =>
    if c.toNat < 128 then [c]
    else if strayByte ≤ c.toNat then [Char.ofNat (c.toNat - strayByte)]
    else (Utf8.encodeChar c).map fun b => Char.ofNat b.toNat

end Foreach.Shell
