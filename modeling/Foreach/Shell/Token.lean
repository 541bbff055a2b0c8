import Foreach.Shell.Word

/-!
Words and operators in the text of a command.

A text that cannot be taken apart ends in a flaw, which counts only for a reader that gets there.
-/

namespace Foreach.Shell

/-- How a stream is redirected; the word says to what. -/
inductive Direction where
  | read
  | write
  /-- Writing even where files are to be kept. -/
  | replace
  | append
  | copy
  /-- For reading and writing. -/
  | both
  deriving DecidableEq, Repr

inductive Sign where
  | word (w : Word)
  | operator (text : String)
  | redirect (stream : Option Nat) (direction : Direction)
  /-- A text that is the input. -/
  | document (stream : Option Nat) (w : Word)
  | flaw (f : Flaw)

/-- A sign, and the number of the line in which it ends. -/
structure Token where
  line : Nat
  sign : Sign

namespace Token

/-- The line ends in a text. -/
def lineEnds (cs : List Char) : Nat := cs.count '\n'

/-- The quote that encloses a command whose output is wanted. -/
def backquote : Char := Char.ofNat 0x60

/-- Characters that end a word. -/
def isMeta (c : Char) : Bool :=
  c = ' ' || c = '\t' || c = '\n' || c = ';' || c = '&' || c = '|' || c = '<' || c = '>' || c = '('
    || c = ')'

/-- What the pieces of a word stand in. -/
inductive Spot where
  | bare
  | quotes
  | braces (quoted : Bool)
  | sum (depth : Nat)
  /-- A text over several lines that is the input. -/
  | document
  deriving DecidableEq

namespace Spot

/-- Whether characters here are as if quoted. -/
def isQuoted : Spot → Bool
  | .bare | .braces false => false
  | _ => true

/-- Whether quotes mean anything here. -/
def hasQuotes : Spot → Bool
  | .bare | .braces _ => true
  | _ => false

/-- The text behind the end of the spot, if it ends at these characters. -/
def ending? : Spot → List Char → Option (List Char)
  | .bare, c :: cs => if isMeta c then some (c :: cs) else none
  | .quotes, '"' :: cs => some cs
  | .braces _, '\x7d' :: cs => some cs
  | .sum 0, ')' :: ')' :: cs => some cs
  | _, _ => none

/-- What is wrong if the text ends here. -/
def flaw? : Spot → Option Flaw
  | .bare | .document => none
  | .quotes => some .openQuote
  | .braces _ => some .openBrace
  | .sum _ => some .openSum

/-- The spot behind a character. -/
def after (s : Spot) (c : Char) : Spot :=
  match s with
  | .sum depth => if c = '(' then .sum (depth + 1) else if c = ')' then .sum (depth - 1) else s
  | s => s

/-- Whether a backslash takes the meaning of a character here. -/
def isEscapable (s : Spot) (c : Char) : Bool :=
  !s.isQuoted || c = '$' || c = '\\' || c = backquote || (c = '"' && s ≠ .document)
    || (c = '\x7d' && s = .braces true)

end Spot

/-- The text up to a closing character, and the text behind it. -/
def upTo (closing : Char) (cs : List Char) : Option (List Char × List Char) :=
  match cs.dropWhile (· != closing) with
  | [] => none
  | _ :: rest => some (cs.takeWhile (· != closing), rest)

/-- The text up to the closing backquote, with those behind a backslash in it, and the text behind. In
quotes a backslash is needed in front of a quote, too. -/
def upToBackquote (quoted : Bool) : List Char → Option (List Char × List Char)
  | [] => none
  | '\\' :: c :: cs =>
    (upToBackquote quoted cs).map fun (body, rest) =>
      let bare := c = backquote || c = '\\' || c = '$' || (c = '"' && quoted)
      (if bare then c :: body else '\\' :: c :: body, rest)
  | c :: cs =>
    if c = backquote then some ([], cs)
    else (upToBackquote quoted cs).map fun (body, rest) => (c :: body, rest)

/-- The text up to the parenthesis that closes the one before it, and the text behind it; `quote` is the
quote that the text begins in. -/
def upToParenthesis (quote : Option Char) : Nat → List Char → Except Flaw (List Char × List Char)
  | _, [] =>
    .error (if quote.isSome then .openQuote else .unexpected "end of file" (some "\")\""))
  | depth, '\\' :: c :: cs =>
    if quote = some '\'' then
      (upToParenthesis (if c = '\'' then none else quote) depth cs).map fun (body, rest) =>
        ('\\' :: c :: body, rest)
    else (upToParenthesis quote depth cs).map fun (body, rest) => ('\\' :: c :: body, rest)
  | depth, c :: cs =>
    match quote with
    | some q =>
      (upToParenthesis (if c = q then none else quote) depth cs).map fun (body, rest) =>
        (c :: body, rest)
    | none =>
      if c = ')' ∧ depth = 0 then .ok ([], cs)
      else
        let depth := if c = '(' then depth + 1 else if c = ')' then depth - 1 else depth
        let quote := if c = '\'' ∨ c = '"' then some c else none
        (upToParenthesis quote depth cs).map fun (body, rest) => (c :: body, rest)

/-- A character that is a parameter of its own. -/
def isSpecial (c : Char) : Bool :=
  c = '?' || c = '$' || c = '#' || c = '@' || c = '*' || c = '!' || c = '-' || c.isDigit

/-- The name of a parameter, and the text behind it. -/
def takeName (cs : List Char) : Option (List Char × List Char) :=
  match cs with
  | [] => none
  | c :: rest =>
    if isNameStart c then some (cs.takeWhile isNameChar, cs.dropWhile isNameChar)
    else if isSpecial c then some ([c], rest)
    else none

/-- The name of a parameter in braces, where a number may have several digits, and the text behind it. -/
def takeBracedName (cs : List Char) : Option (List Char × List Char) :=
  let digits := cs.takeWhile Char.isDigit
  if digits.isEmpty then takeName cs else some (digits, cs.drop digits.length)

/-- The modifier in braces, with whether it takes empty for missing, and the text behind it. -/
def modifier? (cs : List Char) : Option (Modifier × Bool × List Char) :=
  match cs with
  | ':' :: '-' :: rest => some (.fallback, true, rest)
  | ':' :: '=' :: rest => some (.assign, true, rest)
  | ':' :: '+' :: rest => some (.instead, true, rest)
  | ':' :: '?' :: rest => some (.demand, true, rest)
  | '-' :: rest => some (.fallback, false, rest)
  | '=' :: rest => some (.assign, false, rest)
  | '+' :: rest => some (.instead, false, rest)
  | '?' :: rest => some (.demand, false, rest)
  | '%' :: '%' :: rest => some (.dropEnd true, false, rest)
  | '%' :: rest => some (.dropEnd false, false, rest)
  | '#' :: '#' :: rest => some (.dropStart true, false, rest)
  | '#' :: rest => some (.dropStart false, false, rest)
  | _ => none

/-- The length of a parameter behind an opening brace and a number sign. -/
def length? (quoted : Bool) (cs : List Char) : Option (Piece × List Char) :=
  match takeBracedName cs with
  | some (name, '\x7d' :: rest) => some (.length quoted name, rest)
  | _ => none

/-- A quoted part of a word, which is there even if there is nothing in it. -/
def quotedPart (w : Word) : Word := if w.isEmpty then [.empty] else w

/-- A word in a result with more in front of it. -/
def inFront (w : Word) (r : Except Flaw (Word × List Char)) : Except Flaw (Word × List Char) :=
  r.map fun (more, rest) => (w ++ more, rest)

mutual

/-- The pieces up to the end of a spot, and the text behind it; `fuel` is more than the length of the
text, and `last` the number of its last line. -/
def pieces (last : Nat) : Nat → Spot → List Char → Except Flaw (Word × List Char)
  | 0, _, _ => .error .openQuote
  | _, spot, [] => spot.flaw?.elim (.ok ([], [])) .error
  | fuel + 1, spot, c :: cs =>
    match spot.ending? (c :: cs) with
    | some rest => .ok ([], rest)
    | none =>
      if c = '\\' then
        match cs with
        | [] => inFront [.char true c] (pieces last fuel spot [])
        | d :: rest =>
          let meant := if d = '\n' then [] else if spot.isEscapable d then [d] else [c, d]
          inFront (meant.map (.char true)) (pieces last fuel spot rest)
      else if c = '\'' ∧ !spot.isQuoted then
        match upTo '\'' cs with
        | none => .error .openQuote
        | some (body, rest) => inFront (quotedPart (body.map (.char true))) (pieces last fuel spot rest)
      else if c = '"' ∧ spot.hasQuotes then
        match pieces last fuel .quotes cs with
        | .error f => .error f
        | .ok (body, rest) => inFront (quotedPart body) (pieces last fuel spot rest)
      else if c = '$' then
        match expansion last fuel spot.isQuoted cs with
        | .error f => .error f
        | .ok (p, rest) => inFront [p] (pieces last fuel spot rest)
      else if c = backquote then
        match upToBackquote (spot = .quotes) cs with
        | none => .error .openBackquote
        | some (body, rest) => inFront [.output spot.isQuoted none body] (pieces last fuel spot rest)
      else inFront [.char spot.isQuoted c] (pieces last fuel (spot.after c) cs)

/-- The expansion behind a dollar sign, and the text behind it; a sign that begins none stands for
itself. -/
def expansion (last : Nat) : Nat → Bool → List Char → Except Flaw (Piece × List Char)
  | 0, _, _ => .error .openQuote
  | fuel + 1, quoted, cs =>
    match cs with
    | '(' :: '(' :: rest => (pieces last fuel (.sum 0) rest).map fun (w, rest) => (.sum quoted w, rest)
    | '(' :: rest =>
      (upToParenthesis none 0 rest).map fun (body, after) =>
        (.output quoted (some (last - lineEnds rest)) body, after)
    | '\x7b' :: rest => braced last fuel quoted rest
    | cs =>
      match takeName cs with
      | some (name, rest) => .ok (.parameter quoted name, rest)
      | none => .ok (.char quoted '$', cs)

/-- The expansion behind an opening brace, and the text behind it. -/
def braced (last : Nat) : Nat → Bool → List Char → Except Flaw (Piece × List Char)
  | 0, _, _ => .error .openBrace
  | fuel + 1, quoted, cs =>
    let sized := match cs with
      | '#' :: rest => length? quoted rest
      | _ => none
    match sized with
    | some found => .ok found
    | none =>
      let malformed := (pieces last fuel (.braces quoted) cs).map fun (_, rest) => (Piece.malformed, rest)
      match takeBracedName cs with
      | none => malformed
      | some (name, '\x7d' :: rest) => .ok (.parameter quoted name, rest)
      | some (_, []) => .error .openBrace
      | some (name, rest) =>
        match modifier? rest with
        | none => malformed
        | some (m, orEmpty, rest) =>
          (pieces last fuel (.braces (quoted && !m.isPattern)) rest).map fun (operand, rest) =>
            (.modified quoted name m orEmpty operand, rest)

end

/-- The number of a stream that stands directly before a redirection. -/
def stream? (cs : List Char) : Option Nat × List Char :=
  match cs with
  | c :: '<' :: rest => if c.isDigit then (some (c.toNat - '0'.toNat), '<' :: rest) else (none, cs)
  | c :: '>' :: rest => if c.isDigit then (some (c.toNat - '0'.toNat), '>' :: rest) else (none, cs)
  | cs => (none, cs)

/-- An operator or redirection at the start of a text. -/
def operator? (stream : Option Nat) (cs : List Char) : Option (Sign × List Char) :=
  match cs with
  | '>' :: '>' :: rest => some (.redirect stream .append, rest)
  | '>' :: '&' :: rest => some (.redirect stream .copy, rest)
  | '>' :: '|' :: rest => some (.redirect stream .replace, rest)
  | '>' :: rest => some (.redirect stream .write, rest)
  | '<' :: '&' :: rest => some (.redirect (some (stream.getD 0)) .copy, rest)
  | '<' :: '>' :: rest => some (.redirect (some (stream.getD 0)) .both, rest)
  | '<' :: rest => some (.redirect (some (stream.getD 0)) .read, rest)
  | '&' :: '&' :: rest => some (.operator "&&", rest)
  | '&' :: rest => some (.operator "&", rest)
  | '|' :: '|' :: rest => some (.operator "||", rest)
  | '|' :: rest => some (.operator "|", rest)
  | ';' :: ';' :: rest => some (.operator ";;", rest)
  | ';' :: rest => some (.operator ";", rest)
  | '(' :: rest => some (.operator "(", rest)
  | ')' :: rest => some (.operator ")", rest)
  | _ => none

/-- The lines up to one that is the mark, with their ends and perhaps without tabs in front, and the text
behind that line. -/
def takeDocument (mark : List Char) (bare : Bool) : Nat → List Char → List Char × List Char
  | 0, cs => (cs, [])
  | _, [] => ([], [])
  | fuel + 1, cs =>
    let line := cs.takeWhile (· != '\n')
    let behind := cs.drop line.length
    let shown := if bare then line.dropWhile (· = '\t') else line
    if shown = mark then ([], behind.drop 1)
    else
      let (body, rest) := takeDocument mark bare fuel (behind.drop 1)
      (shown ++ behind.take 1 ++ body, rest)

/-- The word that a text begins with, which ends a document: its characters without quotes, whether there are
any quotes, and the text behind it. -/
def takeMark : Option Char → List Char → List Char × Bool × List Char
  | _, [] => ([], false, [])
  | none, '\\' :: c :: rest => let (mark, _, behind) := takeMark none rest; (c :: mark, true, behind)
  | none, c :: rest =>
    if isMeta c then ([], false, c :: rest)
    else if c = '\'' ∨ c = '"' then let (mark, _, behind) := takeMark (some c) rest; (mark, true, behind)
    else let (mark, quoted, behind) := takeMark none rest; (c :: mark, quoted, behind)
  | some q, c :: rest =>
    if c = q then let (mark, _, behind) := takeMark none rest; (mark, true, behind)
    else let (mark, _, behind) := takeMark (some q) rest; (c :: mark, true, behind)

/-- A text that is the input: its mark comes first, and its lines behind the present line. -/
def document? (last : Nat) (stream : Option Nat) (cs : List Char) : Option (Sign × List Char) :=
  match cs with
  | '<' :: '<' :: rest =>
    let bare := rest.head? = some '-'
    let rest := (if bare then rest.drop 1 else rest).dropWhile (· = ' ')
    let (mark, quoted, behind) := takeMark none rest
    if mark.isEmpty && !quoted then none
    else
      let line := behind.takeWhile (· != '\n')
      let below := (behind.drop line.length).drop 1
      let (body, after) := takeDocument mark bare (behind.length + 1) below
      let literal : Word := body.map (.char true)
      let w := if quoted then literal
        else
          match pieces (last - lineEnds below + lineEnds body) (body.length + 1) .document body with
          | .ok (w, _) => w
          | .error _ => literal
      some (.document stream w, line ++ (if below.isEmpty then [] else '\n' :: after))
  | _ => none

/-- The tokens of a text whose last line has the number `last`; `fuel` is more than its length. `line` is
the number of the present line, or none if it is to be told from the line ends that are left: behind the
mark of a document that line goes on. -/
def scan (last : Nat) : Nat → Option Nat → List Char → List Token
  | 0, _, _ => []
  | fuel + 1, line, cs =>
    let present (rest : List Char) : Nat := line.getD (last - lineEnds rest)
    match cs with
    | [] => []
    | ' ' :: rest => scan last fuel line rest
    | '\t' :: rest => scan last fuel line rest
    | '\\' :: '\n' :: rest => scan last fuel (line.map (· + 1)) rest
    | '#' :: rest => scan last fuel line (rest.dropWhile (· != '\n'))
    | '\n' :: rest => ⟨last - lineEnds rest, .operator "\n"⟩ :: scan last fuel none rest
    | cs =>
      let (stream, body) := stream? cs
      match document? last stream body with
      | some (sign, rest) =>
        let line := present cs
        ⟨line, sign⟩ :: scan last fuel (some line) rest
      | none =>
        match operator? stream body with
        | some (sign, rest) => ⟨present cs, sign⟩ :: scan last fuel line rest
        | none =>
          match pieces last (cs.length + 1) .bare cs with
          | .ok (w, rest) =>
            let within := lineEnds cs - lineEnds rest
            ⟨present cs + within, .word w⟩ :: scan last fuel (line.map (· + within)) rest
          | .error f => [⟨last, .flaw f⟩]

/-- The number of the last line of a text that begins in a line. -/
def lastLine (first : Nat) (cs : List Char) : Nat := first + lineEnds cs

/-- The tokens of a command that begins in a line. -/
def ofText (first : Nat) (cs : List Char) : List Token :=
  scan (lastLine first cs) (cs.length + 1) none cs

end Token
end Foreach.Shell
