import Foreach.Json.Token
import Foreach.Yaml.Token.Basic

/-!
Scalars in quotes.

A line break inside counts as a blank, and further ones for themselves; blanks around them do not
count. In double quotes a backslash starts an escape, and one at the end of a line joins the lines. In
single quotes a quote is written twice.
-/

namespace Foreach.Yaml.Quoted

/-- The character that an escape of one letter stands for. -/
def escape? (c : Char) : Option Char :=
  if c = '0' then some (Char.ofNat 0)
  else if c = 'a' then some (Char.ofNat 7)
  else if c = 'v' then some (Char.ofNat 11)
  else if c = 'e' then some (Char.ofNat 0x1b)
  else if c = ' ' then some ' '
  else if c = '\t' then some '\t'
  else if c = 'N' then some (Char.ofNat 0x85)
  else if c = '_' then some (Char.ofNat 0xa0)
  else if c = 'L' then some (Char.ofNat 0x2028)
  else if c = 'P' then some (Char.ofNat 0x2029)
  else Json.unescape c

/-- The number of digits behind the letter of an escape. -/
def digitCount? (c : Char) : Option Nat :=
  if c = 'x' then some 2 else if c = 'u' then some 4 else if c = 'U' then some 8 else none

/-- The character with this code. -/
def charOf (code : Nat) : Except Defect Char :=
  if code ≤ 0x10ffff then .ok (Text.charOfCode code)
  else if code ≤ 0x7fffffff then .error .badScalar
  else .error .tooLarge

/-- The character that an escape stands for, and the text behind it. -/
def escaped (letter : Char) (rest : List Char) : Except Defect (Char × List Char) :=
  match escape? letter, digitCount? letter with
  | some c, _ => .ok (c, rest)
  | none, none => .error .malformed
  | none, some n =>
    match (rest.take n).mapM Json.hexValue with
    | none => .error .malformed
    | some ds =>
      if ds.length = n then
        (charOf (ds.foldl (fun a d => 16 * a + d) 0)).map fun c => (c, rest.drop n)
      else .error .malformed

/-- The line breaks that are next, blanks around them aside; the mark of a document must not be among
them. -/
def breaks : Nat → List Char → Except Defect (List Char × List Char)
  | 0, _ => .error .malformed
  | fuel + 1, cs =>
    if atDocumentMark cs then .error .malformed
    else
      let rest := cs.dropWhile isBlank
      match takeBreak rest with
      | none => .ok ([], rest)
      | some (c, rest) => (breaks fuel rest).map fun (more, rest) => (c :: more, rest)

/-- What a line break stands for, with the line breaks behind it. -/
def folded (c : Char) (more : List Char) : List Char :=
  if c != '\n' then c :: more else if more.isEmpty then [' '] else more

/-- The text up to the closing quote, and what follows it. -/
def content (quote : Char) : Nat → List Char → Except Defect (List Char × List Char)
  | 0, _ => .error .malformed
  | _, [] => .error .malformed
  | fuel + 1, c :: rest =>
    let goOn (front rest : List Char) :=
      (content quote fuel rest).map fun (text, rest) => (front ++ text, rest)
    if c = quote then
      if quote = '\'' ∧ rest.head? = some quote then goOn [quote] (rest.drop 1)
      else .ok ([], rest)
    else if c = '\\' ∧ quote = '"' then
      match takeBreak rest, rest with
      | some (_, rest), _ =>
        match breaks (rest.length + 1) rest with
        | .error d => .error d
        | .ok (more, rest) => goOn more rest
      | none, letter :: rest =>
        match escaped letter rest with
        | .error d => .error d
        | .ok (c, rest) => goOn [c] rest
      | none, [] => .error .malformed
    else if isBlank c || isBreak c then
      let blanks := (c :: rest).takeWhile isBlank
      let rest := (c :: rest).dropWhile isBlank
      match takeBreak rest with
      | none => goOn blanks rest
      | some (c, rest) =>
        match breaks (rest.length + 1) rest with
        | .error d => .error d
        | .ok (more, rest) => goOn (folded c more) rest
    else goOn [c] rest

/-- The scalar in quotes at the start of a text, and what follows it. -/
def scan (cs : List Char) : Except Defect (List Char × List Char) :=
  match cs with
  | [] => .error .malformed
  | quote :: rest => content quote (rest.length + 1) rest

end Foreach.Yaml.Quoted
