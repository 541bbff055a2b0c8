import Foreach.Yaml.Token.Basic

/-!
Scalars that keep their lines: `|` keeps every line break, `>` folds the lines of a paragraph into one.

A header says how far the lines are indented, if the first of them does not show it, and whether the
line breaks at the end are kept.
-/

namespace Foreach.Yaml.Literal

/-- What becomes of the line breaks at the end. -/
inductive Ending where
  | strip
  | clip
  | keep
  deriving DecidableEq, Repr

/-- The header of a scalar. -/
structure Header where
  ending : Ending
  indent : Option Nat

def ending? (c : Char) : Option Ending :=
  if c = '+' then some .keep else if c = '-' then some .strip else none

def indent? (c : Char) : Option Nat :=
  if '0' ≤ c ∧ c ≤ '9' then some (c.toNat - '0'.toNat) else none

/-- The header at the start of a text, whose two parts may come in either order. -/
def header (cs : List Char) : Header × List Char :=
  match cs with
  | [] => (⟨.clip, none⟩, [])
  | c :: rest =>
    match ending? c, indent? c with
    | some e, _ =>
      match rest.head?.bind indent? with
      | some n => (⟨e, some n⟩, rest.drop 1)
      | none => (⟨e, none⟩, rest)
    | none, some n =>
      match rest.head?.bind ending? with
      | some e => (⟨e, some n⟩, rest.drop 1)
      | none => (⟨.clip, some n⟩, rest)
    | none, none => (⟨.clip, none⟩, cs)

/-- A text at a place in a line, with the line breaks that led there. -/
structure Reach where
  breaks : List Char
  rest : List Char
  column : Nat

/-- Up to this many blanks are taken off the start of a line, line after line, until one says
something or is deeper. -/
def reach (indent : Nat) : Nat → List Char → Reach
  | 0, cs => ⟨[], cs, 0⟩
  | fuel + 1, cs =>
    let blanks := (cs.take indent).takeWhile (· = ' ')
    let rest := cs.drop blanks.length
    match takeBreak rest with
    | none => ⟨[], rest, blanks.length⟩
    | some (c, rest) =>
      let r := reach indent fuel rest
      { r with breaks := c :: r.breaks }

/-- The lines of blanks at the start, and the greatest depth of a line up to the first that says
something. -/
def measure : Nat → List Char → Reach × Nat
  | 0, cs => (⟨[], cs, 0⟩, 0)
  | fuel + 1, cs =>
    let depth := (cs.takeWhile (· = ' ')).length
    let rest := dropSpaces cs
    match takeBreak rest with
    | none => (⟨[], rest, depth⟩, depth)
    | some (c, rest) =>
      let (r, deepest) := measure fuel rest
      ({ r with breaks := c :: r.breaks }, max depth deepest)

/-- What the line break behind a line stands for; only lines that start with no blank are folded. -/
def joint (fold : Bool) (line : List Char) (c : Char) (next : Reach) : List Char :=
  let isFlush (cs : List Char) : Bool := !(cs.head?.map isBlank).getD false
  if fold && c = '\n' && isFlush line && isFlush next.rest then
    if next.breaks.isEmpty then [' '] else []
  else [c]

/-- The lines from here on, the line breaks at their end, and the text behind them. -/
def lines (fold : Bool) (indent : Nat) : Nat → Reach → List Char × List Char × List Char
  | 0, r => ([], [], r.rest)
  | fuel + 1, r =>
    let line := lineRest r.rest
    match takeBreak (dropLine r.rest) with
    | none => (r.breaks ++ line, [], [])
    | some (c, rest) =>
      let next := reach indent (rest.length + 1) rest
      if next.column = indent ∧ next.rest ≠ [] then
        let (text, tail, rest) := lines fold indent fuel next
        (r.breaks ++ line ++ joint fold line c next ++ text, tail, rest)
      else (r.breaks ++ line, c :: next.breaks, next.rest)

/-- The line breaks at the end that are part of the text. -/
def kept (e : Ending) (tail : List Char) : List Char :=
  match e with
  | .strip => []
  | .clip => tail.take 1
  | .keep => tail

/-- The text below a header, in a block that is indented this far. -/
def content (fold : Bool) (h : Header) (least : Nat) (cs : List Char) : List Char × List Char :=
  let (r, indent) := match h.indent with
    | some n =>
      let indent := least + n - 1
      (reach indent (cs.length + 1) cs, indent)
    | none =>
      let (r, deepest) := measure (cs.length + 1) cs
      (r, max least deepest)
  if r.column = indent ∧ r.rest ≠ [] then
    let (text, tail, rest) := lines fold indent (r.rest.length + 1) r
    (text ++ kept h.ending tail, rest)
  else (if h.ending = .keep then r.breaks else [], r.rest)

/-- The scalar behind its sign, in a block that is indented by `outer`, or not at all. -/
def scan (fold : Bool) (outer : Int) (cs : List Char) : Except Defect (List Char × List Char) :=
  let (h, rest) := header cs
  if h.indent = some 0 ∨ !atSpace rest then .error .malformed
  else
    match endOfLine? rest with
    | none => .error .malformed
    | some rest => .ok (content fold h (max 1 (outer + 1).toNat) rest)

end Foreach.Yaml.Literal
