import Foreach.Shell.Word

/-!
Patterns for whole texts, such as names of files.

A star fits any text, a question mark any character, and brackets fit the characters that they list. A
quoted character fits itself.
-/

namespace Foreach.Shell

/-- A part of a pattern. -/
inductive Glob where
  | char (c : Char)
  | one
  | many
  | set (negated : Bool) (ranges : List (Char × Char))
  deriving DecidableEq, Repr

namespace Glob

/-- The ranges of a class of characters by its name. -/
def classRanges (name : String) : List (Char × Char) :=
  let upper := ('A', 'Z')
  let lower := ('a', 'z')
  let digit := ('0', '9')
  match name with
  | "upper" => [upper]
  | "lower" => [lower]
  | "digit" => [digit]
  | "alpha" => [upper, lower]
  | "alnum" => [digit, upper, lower]
  | "xdigit" => [digit, ('A', 'F'), ('a', 'f')]
  | "space" => [('\t', '\r'), (' ', ' ')]
  | "blank" => [('\t', '\t'), (' ', ' ')]
  | "punct" => [('!', '/'), (':', '@'), ('[', Char.ofNat 0x60), ('\x7b', '~')]
  | "print" => [(' ', '~')]
  | "graph" => [('!', '~')]
  | "cntrl" => [(Char.ofNat 0, Char.ofNat 0x1f), (Char.ofNat 0x7f, Char.ofNat 0x7f)]
  | _ => []

/-- The ranges up to a closing bracket, and what is behind it; `fuel` is more than the length. -/
def ranges : Nat → List (Bool × Char) → Option (List (Char × Char) × List (Bool × Char))
  | 0, _ => none
  | _, [] => none
  | _, (false, ']') :: rest => some ([], rest)
  | fuel + 1, (false, '[') :: (false, ':') :: rest =>
    let name := (rest.map (·.2)).takeWhile Char.isAlpha
    match rest.drop name.length with
    | (_, ':') :: (_, ']') :: after =>
      (ranges fuel after).map fun (rs, r) => (classRanges (String.ofList name) ++ rs, r)
    | _ => (ranges fuel ((false, ':') :: rest)).map fun (rs, r) => (('[', '[') :: rs, r)
  | fuel + 1, (_, a) :: (false, '-') :: (quoted, b) :: rest =>
    if !quoted && b = ']' then some ([(a, a), ('-', '-')], rest)
    else (ranges fuel rest).map fun (rs, r) => ((a, b) :: rs, r)
  | fuel + 1, (_, c) :: rest => (ranges fuel rest).map fun (rs, r) => ((c, c) :: rs, r)

/-- The ranges of a set, the first character being one of it whatever it is. -/
def setOf : List (Bool × Char) → Option (List (Char × Char) × List (Bool × Char))
  | (false, ']') :: rest => (ranges (rest.length + 1) rest).map fun (rs, r) => ((']', ']') :: rs, r)
  | cs => ranges (cs.length + 1) cs

/-- The pattern of characters with whether each is quoted; `fuel` is at least their number. -/
def ofChars : Nat → List (Bool × Char) → List Glob
  | 0, _ => []
  | _, [] => []
  | fuel + 1, (quoted, c) :: rest =>
    if quoted then .char c :: ofChars fuel rest
    else if c = '*' then .many :: ofChars fuel rest
    else if c = '?' then .one :: ofChars fuel rest
    else if c = '[' then
      let (negated, body) := match rest with
        | (false, '!') :: body => (true, body)
        | (false, '^') :: body => (true, body)
        | body => (false, body)
      match setOf body with
      | some (rs, after) => .set negated rs :: ofChars fuel after
      | none => .char c :: ofChars fuel rest
    else .char c :: ofChars fuel rest

def isLiteral : Glob → Bool
  | .char _ => true
  | _ => false

/-- Whether a part for one character fits it. -/
def fitsOne (g : Glob) (c : Char) : Bool :=
  match g with
  | .char d => c = d
  | .one => true
  | .many => false
  | .set negated ranges => (ranges.any fun (low, high) => low ≤ c && c ≤ high) != negated

/-- Whether a test holds for a text or for one of its ends. -/
def anyEnd (p : List Char → Bool) : List Char → Bool
  | [] => p []
  | c :: cs => p (c :: cs) || anyEnd p cs

/-- Whether a pattern fits the whole of a text. -/
def fits : List Glob → List Char → Bool
  | [], cs => cs.isEmpty
  | g :: gs, cs =>
    if g = .many then anyEnd (fits gs) cs
    else
      match cs with
      | [] => false
      | c :: cs => fitsOne g c && fits gs cs

/-- The characters up to the first place where fields meet. -/
def upToGap (cs : List (Option Char)) : List Char := (cs.takeWhile Option.isSome).filterMap id

/-- A row of characters, of which some stand where fields meet, without what the pattern fits at its start:
the most of it, or the least. -/
def dropStart (gs : List Glob) (most : Bool) (cs : List (Option Char)) : List (Option Char) :=
  let sizes := (List.range (cs.length + 1)).filter fun n => fits gs (upToGap (cs.take n))
  cs.drop ((if most then sizes.getLast? else sizes.head?).getD 0)

/-- A row of characters without what the pattern fits at its end. -/
def dropEnd (gs : List Glob) (most : Bool) (cs : List (Option Char)) : List (Option Char) :=
  let sizes := (List.range (cs.length + 1)).filter fun n => fits gs (upToGap (cs.drop n))
  cs.take ((if most then sizes.head? else sizes.getLast?).getD cs.length)

end Glob
end Foreach.Shell
