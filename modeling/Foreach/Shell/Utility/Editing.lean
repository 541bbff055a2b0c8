import Foreach.Shell.Utility.Match

/-!
Scripts that edit lines: `sed`.

A script is a row of instructions. Each line in turn becomes the text under edit, all instructions are
followed, and what has become of the text is written.
-/

namespace Foreach.Shell.Utility

/-! ### Instructions -/

/-- What a line has to be for an instruction. -/
inductive Address where
  | number (n : Nat)
  /-- Every line so many lines further on. -/
  | steps (first step : Nat)
  | last
  /-- A line with a match; without a pattern, the last one that was used. -/
  | fits (r : Option Regex) (ignoreCase : Bool)

/-- Where the lines of an instruction end. -/
inductive Extent where
  | upTo (a : Address)
  | further (n : Nat)
  | multiple (n : Nat)

/-- How matches are replaced. -/
structure Substitution where
  pattern : Option Regex
  ignoreCase : Bool
  template : List Char
  /-- The number of the first match that is replaced. -/
  first : Nat
  all : Bool
  prints : Bool
  file : Option (List Char)

/-- What is done to a line. -/
inductive Edit where
  | substitute (s : Substitution)
  | exchange (first second : List Char)
  | print
  | printFirst
  | number
  | spell
  | delete
  | deleteFirst
  | next
  | joinNext
  | toHold
  | appendToHold
  | fromHold
  | appendHold
  | swapHold
  | append (text : List Char)
  | insert (text : List Char)
  | change (text : List Char)
  | readFile (route : List Char)
  | writeFile (route : List Char)
  | quit (prints : Bool) (status : Nat)
  | label (name : List Char)
  /-- Goes on at a label, or at the end; perhaps only if something was replaced or nothing was. -/
  | branch (replaced : Option Bool) (name : List Char)
  | opening
  | closing

/-- An edit for the lines between two addresses, for those at one, or for all; or for all others. -/
structure Instruction where
  first : Option Address
  final : Option Extent
  inverted : Bool
  edit : Edit

/-! ### Except ScriptFlaw (scripts × List Char) -/

/-- The text up to a separator that no backslash stands before, and the text behind it. -/
def takePart (separator : Char) : List Char → Option (List Char × List Char)
  | [] => none
  | '\\' :: c :: rest =>
    (takePart separator rest).map fun (part, r) =>
      (if c = separator then c :: part
        else if c = 'n' ∧ separator = 'n' then part
        else '\\' :: c :: part, r)
  | c :: rest =>
    if c = separator then some ([], rest)
    else (takePart separator rest).map fun (part, r) => (c :: part, r)

/-- What is wrong with a script, and what follows that place. -/
structure ScriptFlaw where
  what : String
  rest : List Char

/-- What is wrong with a script whose groups are not all closed. -/
def openGroup : String := "unmatched \x60\x7b'"

/-- Whether the whole script is wrong and no place in it. -/
def ScriptFlaw.isWhole (f : ScriptFlaw) : Bool := f.what == openGroup

/-- A part of an instruction that a separator has to end. -/
def closedPart (what : String) (separator : Char) (cs : List Char) : Except ScriptFlaw (List Char × List Char) :=
  (takePart separator cs).elim (.error ⟨what, []⟩) .ok

/-- The pattern that a part denotes, with its groups; an empty one is the last that was used. -/
def scriptPattern (extended : Bool) (text rest : List Char) : Except ScriptFlaw (Option Regex × Nat) :=
  if text.isEmpty then .ok (none, 9)
  else
    match Regex.read ⟨extended, true⟩ (wide text) with
    | .ok (r, groups) => .ok (some r, groups)
    | .error flaw => .error ⟨flaw.message, rest⟩

def dropBlanks (cs : List Char) : List Char := cs.dropWhile fun c => c = ' ' || c = '\t'

/-- The numeral at the start of a text. -/
def takeNumeral (cs : List Char) : Nat × List Char :=
  let digits := cs.takeWhile Text.isDigit
  (Text.numeral digits, cs.drop digits.length)

/-- An address in front of an instruction. -/
def address? (extended : Bool) (cs : List Char) : Except ScriptFlaw (Option Address × List Char) :=
  let pattern (separator : Char) (rest : List Char) : Except ScriptFlaw (Option Address × List Char) := do
    let (text, rest) ← closedPart "unterminated address regex" separator rest
    let folds := rest.takeWhile fun c => c = 'I' || c = 'M'
    let (r, _) ← scriptPattern extended text rest
    return (some (.fits r (folds.contains 'I')), rest.drop folds.length)
  match cs with
  | '$' :: rest => .ok (some .last, rest)
  | '/' :: rest => pattern '/' rest
  | '\\' :: separator :: rest => pattern separator rest
  | cs =>
    if (cs.head?.map Text.isDigit).getD false then
      let (n, rest) := takeNumeral cs
      match rest with
      | '~' :: rest =>
        let (step, rest) := takeNumeral rest
        .ok (some (if step = 0 then .number n else .steps n step), rest)
      | rest => .ok (some (.number n), rest)
    else .ok (none, cs)

/-- The second address of an instruction. -/
def extent? (extended : Bool) (cs : List Char) : Except ScriptFlaw (Option Extent × List Char) :=
  match cs with
  | ',' :: rest =>
    match dropBlanks rest with
    | '+' :: rest => (let (n, rest) := takeNumeral rest; .ok (some (.further n), rest))
    | '~' :: rest => (let (n, rest) := takeNumeral rest; .ok (some (.multiple n), rest))
    | rest => do
      match ← address? extended rest with
      | (some a, rest) => return (some (.upTo a), rest)
      | (none, rest) => .error ⟨"unexpected \x60,'", rest.drop 1⟩
  | rest => .ok (none, rest)

/-- The text of an instruction that writes one: up to the end of the line, where a backslash keeps what is
behind it. -/
def takeText : List Char → List Char × List Char
  | [] => ([], [])
  | '\\' :: c :: rest => let (text, r) := takeText rest; (c :: text, r)
  | '\\' :: [] => ([], [])
  | '\n' :: rest => ([], rest)
  | c :: rest => let (text, r) := takeText rest; (c :: text, r)

/-- The text behind the letter of such an instruction. -/
def instructionText (cs : List Char) : Except ScriptFlaw (List Char × List Char) :=
  let behind := dropBlanks cs
  let body := match behind with
    | '\\' :: rest =>
      match dropBlanks rest with
      | '\n' :: rest => rest
      | _ => rest
    | rest => rest
  if behind = ['\\'] then .ok ([], [])
  else if behind.isEmpty then .error ⟨"expected \\ after \x60a', \x60c' or \x60i'", []⟩
  else
    let (text, rest) := takeText body
    .ok (text ++ ['\n'], rest)

/-- The rest behind an instruction, which has to end there. -/
def endOfEdit (cs : List Char) : Except ScriptFlaw (List Char) :=
  match dropBlanks cs with
  | [] => .ok []
  | c :: rest =>
    if c = ';' ∨ c = '\n' then .ok rest
    else if c = '\x7d' ∨ c = '#' then .ok (c :: rest)
    else .error ⟨"extra characters after command", rest⟩

/-- The word up to the end of a line. -/
def takeRoute (cs : List Char) : List Char × List Char :=
  let cs := dropBlanks cs
  let route := cs.takeWhile (· != '\n')
  (route, cs.drop (route.length + 1))

/-- The label that a branch names. -/
def takeLabel (cs : List Char) : List Char × List Char :=
  let cs := dropBlanks cs
  let name := cs.takeWhile fun c => c != ';' && c != '\n' && c != ' ' && c != '\t'
  (name, cs.drop name.length)

/-- The flags of a substitution. -/
def flags (s : Substitution) : Nat → List Char → Except ScriptFlaw (Substitution × List Char)
  | 0, cs => .ok (s, cs)
  | fuel + 1, cs =>
    match cs with
    | [] => .ok (s, [])
    | c :: rest =>
      if c = 'g' then
        if s.all then .error ⟨"multiple \x60g' options to \x60s' command", rest⟩
        else flags { s with all := true } fuel rest
      else if c = 'p' then
        if s.prints then .error ⟨"multiple \x60p' options to \x60s' command", rest⟩
        else flags { s with prints := true } fuel rest
      else if c = 'i' ∨ c = 'I' then flags { s with ignoreCase := true } fuel rest
      else if c = 'm' ∨ c = 'M' then flags s fuel rest
      else if c = 'w' then
        let (route, rest) := takeRoute rest
        .ok ({ s with file := some route }, rest)
      else if Text.isDigit c then
        let (n, rest) := takeNumeral cs
        if n = 0 then .error ⟨"number option to \x60s' command may not be zero", rest⟩
        else flags { s with first := n } fuel rest
      else if c = ';' ∨ c = '\n' then .ok (s, rest)
      else if c = '\x7d' ∨ c = '#' then .ok (s, cs)
      else if c = ' ' ∨ c = '\t' then (endOfEdit rest).map fun rest => (s, rest)
      else .error ⟨"unknown option to \x60s'", rest⟩

/-- The greatest number of a group that a template names. -/
def greatestReference : List Char → Nat
  | '\\' :: c :: rest => max (if c.isDigit then c.toNat - '0'.toNat else 0) (greatestReference rest)
  | _ :: rest => greatestReference rest
  | [] => 0

/-- A text with the escapes that an exchange of characters knows. -/
def exchangeSet : List Char → List Char
  | '\\' :: c :: rest => (if c = 'n' then '\n' else if c = 't' then '\t' else c) :: exchangeSet rest
  | c :: rest => c :: exchangeSet rest
  | [] => []

/-- An edit, and what follows it. -/
def edit (extended : Bool) (cs : List Char) : Except ScriptFlaw (Edit × List Char) :=
  let plain (e : Edit) (rest : List Char) : Except ScriptFlaw (Edit × List Char) := (endOfEdit rest).map fun rest => (e, rest)
  match cs with
  | [] => .error ⟨"missing command", []⟩
  | c :: rest =>
    match c with
    | 's' => do
      let unclosed := "unterminated \x60s' command"
      let separator := rest.headD '/'
      let (pattern, rest) ← closedPart unclosed separator (rest.drop 1)
      let (template, rest) ← closedPart unclosed separator rest
      let (s, rest) ← flags ⟨none, false, wide template, 1, false, false, none⟩ (rest.length + 1) rest
      let (r, groups) ← scriptPattern extended pattern rest
      let greatest := greatestReference template
      if groups < greatest then
        .error ⟨s!"invalid reference \\{greatest} on \x60s' command's RHS", rest⟩
      return (.substitute { s with pattern := r }, rest)
    | 'y' => do
      let unclosed := "unterminated \x60y' command"
      let separator := rest.headD '/'
      let (first, rest) ← closedPart unclosed separator (rest.drop 1)
      let (second, rest) ← closedPart unclosed separator rest
      let a := wide (exchangeSet first)
      let b := wide (exchangeSet second)
      if a.length ≠ b.length then .error ⟨"strings for \x60y' command are different lengths", rest⟩
      plain (.exchange a b) rest
    | 'p' => plain .print rest
    | 'P' => plain .printFirst rest
    | '=' => plain .number rest
    | 'l' => plain .spell (rest.dropWhile fun c => c = ' ' || Text.isDigit c)
    | 'd' => plain .delete rest
    | 'D' => plain .deleteFirst rest
    | 'n' => plain .next rest
    | 'N' => plain .joinNext rest
    | 'h' => plain .toHold rest
    | 'H' => plain .appendToHold rest
    | 'g' => plain .fromHold rest
    | 'G' => plain .appendHold rest
    | 'x' => plain .swapHold rest
    | 'z' => plain (.change []) rest
    | 'a' => (instructionText rest).map fun (text, rest) => (.append text, rest)
    | 'i' => (instructionText rest).map fun (text, rest) => (.insert text, rest)
    | 'c' => (instructionText rest).map fun (text, rest) => (.change text, rest)
    | 'r' => let (route, rest) := takeRoute rest; .ok (.readFile route, rest)
    | 'w' => let (route, rest) := takeRoute rest; .ok (.writeFile route, rest)
    | 'q' => let (n, rest) := takeNumeral (dropBlanks rest); plain (.quit true n) rest
    | 'Q' => let (n, rest) := takeNumeral (dropBlanks rest); plain (.quit false n) rest
    | 'b' => let (name, rest) := takeLabel rest; plain (.branch none name) rest
    | 't' => let (name, rest) := takeLabel rest; plain (.branch (some true) name) rest
    | 'T' => let (name, rest) := takeLabel rest; plain (.branch (some false) name) rest
    | ':' =>
      let (name, rest) := takeLabel rest
      if name.isEmpty then .error ⟨"\":\" lacks a label", rest⟩ else plain (.label name) rest
    | '\x7b' => .ok (.opening, rest)
    | '\x7d' => plain .closing rest
    | c => .error ⟨"unknown command: \x60" ++ textOf (narrow [c]) ++ "'", rest⟩

/-- The instructions of a script; `fuel` is more than its length, `depth` how many groups are open. -/
def instructions (extended : Bool) : Nat → Nat → List Char → Except ScriptFlaw (List Instruction)
  | 0, _, _ => .ok []
  | fuel + 1, depth, cs =>
    match cs.dropWhile fun c => c = ';' || c = '\n' || c = ' ' || c = '\t' with
    | [] => if depth = 0 then .ok [] else .error ⟨openGroup, []⟩
    | '#' :: rest => instructions extended fuel depth (rest.dropWhile (· != '\n'))
    | cs => do
      let (first, rest) ← address? extended cs
      let rest := dropBlanks rest
      let (final, rest) ← if first.isSome then extent? extended rest else .ok (none, rest)
      match first, final with
      | some (.number 0), some (.upTo (.fits _ _)) => pure ()
      | some (.number 0), _ => .error ⟨"invalid usage of line address 0", rest.drop 1⟩
      | _, _ => pure ()
      let rest := dropBlanks rest
      let (inverted, rest) := match rest with
        | '!' :: rest => (true, dropBlanks rest)
        | rest => (false, rest)
      if inverted ∧ rest.head? = some '!' then .error ⟨"multiple \x60!'s", rest.drop 1⟩
      if first.isNone ∧ rest.head? = some ',' then .error ⟨"unexpected \x60,'", rest.drop 1⟩
      if first.isSome ∧ rest.head? = some '\x7d' then
        .error ⟨"\x7d doesn't want any addresses", rest.drop 1⟩
      if first.isSome ∧ rest.head? = some ':' then .error ⟨": doesn't want any addresses", rest.drop 1⟩
      if first.isSome ∧ rest.head? = some '#' then
        .error ⟨"comments don't accept any addresses", rest.drop 1⟩
      if depth = 0 ∧ rest.head? = some '\x7d' then .error ⟨"unexpected \x60\x7d'", rest.drop 1⟩
      let depth := if rest.head? = some '\x7b' then depth + 1
        else if rest.head? = some '\x7d' then depth - 1 else depth
      let (e, rest) ← edit extended rest
      let more ← instructions extended fuel depth rest
      return ⟨first, final, inverted, e⟩ :: more

/-! ### Following scripts -/

/-- A text under edit, and all that belongs to it. -/
structure Edited where
  space : List Char
  hold : List Char
  number : Nat
  /-- The lines that are still to come. -/
  coming : List (List Char)
  /-- Whether the last line has an end. -/
  whole : Bool
  /-- What lines end with. -/
  lineEnd : Char
  /-- What was written, the last piece first. -/
  out : List (List Char)
  /-- Whether the last line that was written lacks its end. -/
  owed : Bool
  /-- What is written behind the text. -/
  queue : List (List Char)
  /-- Whether something was replaced since the line was read or a branch asked for it. -/
  replaced : Bool
  /-- The instructions whose lines have begun and not ended, with the last line if it is known. -/
  active : List (Nat × Option Nat)
  pattern : Option Regex
  /-- Texts for files. -/
  files : List (List Char × List Char)
  status : Nat
  /-- Whether the last pattern was asked for where there was none. -/
  vague : Bool

namespace Edited

def isLast (s : Edited) : Bool := s.coming.isEmpty

/-- Writes a text as it is. -/
def raw (s : Edited) (text : List Char) : Edited :=
  if text.isEmpty then s
  else { s with out := text :: (if s.owed then [s.lineEnd] :: s.out else s.out), owed := false }

/-- Writes a line, with its end unless it is the last one and that has none. -/
def line (s : Edited) (text : List Char) : Edited :=
  if s.isLast && !s.whole then
    { s with out := text :: (if s.owed then [s.lineEnd] :: s.out else s.out), owed := true }
  else s.raw (text ++ [s.lineEnd])

/-- Writes what is to be behind the text. -/
def flush (s : Edited) : Edited :=
  { (s.queue.foldl raw s) with queue := [] }

/-- Writes a text to a file. -/
def toFile (s : Edited) (route text : List Char) : Edited :=
  if route = octetsOf "/dev/stdout" then s.raw (text ++ ['\n'])
  else { s with files := (route, (s.files.lookup route).getD [] ++ text ++ ['\n'])
    :: s.files.filter fun (r, _) => r != route }

end Edited

/-- Whether a line is at an address, and the text under edit with the pattern that was used. -/
def Address.holds (a : Address) (s : Edited) : Bool × Edited :=
  match a with
  | .number n => (n = s.number, s)
  | .steps first step => (first ≤ s.number && (s.number - first) % step = 0, s)
  | .last => (s.isLast, s)
  | .fits r ignoreCase =>
    let r := r <|> s.pattern
    (r.any fun r => r.isIn ignoreCase (wide s.space), { s with pattern := r })

/-- Whether an instruction with some index is for a line. -/
def Instruction.selects (i : Instruction) (index : Nat) (s : Edited) : Bool × Edited :=
  let start (stop : Option Nat) (s : Edited) : Edited := { s with active := (index, stop) :: s.active }
  let finish (s : Edited) : Edited := { s with active := s.active.filter (·.1 != index) }
  match i.first, i.final with
  | none, _ => (true, s)
  | some a, none => a.holds s
  | some a, some e =>
    match s.active.lookup index with
    | some (some stop) =>
      if s.number < stop then (true, s)
      else if s.number = stop then (true, finish s)
      else (fun (p : Bool × Edited) => p) (a.holds (finish s))
    | some none =>
      match e with
      | .upTo b =>
        let (ends, s) := b.holds s
        (true, if ends then finish s else s)
      | _ => (true, finish s)
    | none =>
      let (begins, s) := a.holds s
      if !begins then (false, s)
      else
        match e with
        | .further n => (true, if n = 0 then s else start (some (s.number + n)) s)
        | .multiple n =>
          let stop := if n = 0 then s.number else (s.number + n - 1) / n * n
          (true, if stop ≤ s.number then s else start (some stop) s)
        | .upTo (.number n) => (true, if n ≤ s.number then s else start (some n) s)
        | .upTo _ => (true, start none s)

/-- How the letters of a filled template are changed: all of them, and the next one. -/
structure Casing where
  all : Option Bool
  next : Option Bool

/-- A text with its letters changed. -/
def Casing.apply (k : Casing) (cs : List Char) : List Char × Casing :=
  let turn (upper : Option Bool) (c : Char) : Char :=
    match upper with
    | some true => c.toUpper
    | some false => c.toLower
    | none => c
  match cs with
  | [] => ([], k)
  | c :: rest => (turn (k.next <|> k.all) c :: rest.map (turn k.all), { k with next := none })

/-- A template with the matched text in the place of each `&`, and the text of a group in the place of its
number. -/
def filled (found : List Char) (groups : List (Nat × List Char)) : Casing → List Char → List Char
  | _, [] => []
  | k, '\\' :: c :: rest =>
    let put (part : List Char) : List Char :=
      let (text, k) := k.apply part
      text ++ filled found groups k rest
    match c with
    | 'U' => filled found groups ⟨some true, none⟩ rest
    | 'L' => filled found groups ⟨some false, none⟩ rest
    | 'E' => filled found groups ⟨none, none⟩ rest
    | 'u' => filled found groups { k with next := some true } rest
    | 'l' => filled found groups { k with next := some false } rest
    | 'n' => put ['\n']
    | 't' => put ['\t']
    | c =>
      put (if c = '0' then found
        else if c.isDigit then (groups.lookup (c.toNat - '0'.toNat)).getD []
        else [c])
  | k, c :: rest =>
    let (text, k) := k.apply (if c = '&' then found else [c])
    text ++ filled found groups k rest

/-- A line with matches replaced, from the one with the number `next` on; tells whether there was one. An
empty match directly behind another one does not count. -/
def replaceIn (r : Regex) (s : Substitution) :
    Nat → Nat → Nat → Option Char → Bool → List Char → List Char × Bool
  | 0, _, _, _, _, cs => (cs, false)
  | fuel + 1, next, seen, prior, adjacent, cs =>
    match r.findFrom s.ignoreCase seen prior cs with
    | none => (cs, false)
    | some (before, found, t) =>
      let skip := found.isEmpty && before.isEmpty && adjacent
      let chosen := !skip && next ≤ 1
      let changed := before ++ if chosen then filled found t.groups ⟨none, none⟩ s.template else found
      if chosen && !s.all then (changed ++ t.rest, true)
      else
        let next := if skip then next else next - 1
        match found, t.rest with
        | [], [] => (changed, chosen)
        | [], c :: rest =>
          let (more, again) := replaceIn r s fuel next (t.seen + 1) (some c) false rest
          (changed ++ c :: more, again || chosen)
        | _, rest =>
          let (more, again) := replaceIn r s fuel next t.seen t.prior true rest
          (changed ++ more, again || chosen)

/-- A text in signs that can be seen, in rows of a width. -/
def spelled (cs : List Char) : List Char :=
  let sign (c : Char) : List Char :=
    match c with
    | '\\' => ['\\', '\\']
    | '\n' => ['\\', 'n']
    | '\t' => ['\\', 't']
    | '\r' => ['\\', 'r']
    | c =>
      if c = Char.ofNat 7 then ['\\', 'a']
      else if c = Char.ofNat 8 then ['\\', 'b']
      else if c = Char.ofNat 11 then ['\\', 'v']
      else if c = Char.ofNat 12 then ['\\', 'f']
      else if c.toNat < 32 ∨ 127 ≤ c.toNat then '\\' :: widened false true 3 (Nat.toDigits 8 c.toNat)
      else [c]
  let step (acc : List Char × Nat) (part : List Char) : List Char × Nat :=
    let (text, width) := acc
    if 69 < width + part.length then (text ++ '\\' :: '\n' :: part, part.length)
    else (text ++ part, width + part.length)
  ((cs.map sign).foldl step ([], 0)).1 ++ ['$']

/-- How a script goes on behind an instruction. -/
inductive Course where
  | on
  | at (index : Nat)
  /-- The line is done and is written. -/
  | done
  /-- The line is done and is not written. -/
  | dropped
  /-- The script begins again with what is left of the text. -/
  | again
  | ended (prints : Bool)

/-- The place behind the end of the group that is opened before some instructions. -/
def behindGroup : Nat → Nat → List Instruction → Nat
  | _, index, [] => index
  | depth, index, i :: rest =>
    match i.edit with
    | .opening => behindGroup (depth + 1) (index + 1) rest
    | .closing => if depth = 0 then index + 1 else behindGroup (depth - 1) (index + 1) rest
    | _ => behindGroup depth (index + 1) rest

/-- The place of a label; without a name, the end. -/
def placeOfLabel (script : List Instruction) (name : List Char) : Nat :=
  if name.isEmpty then script.length
  else (script.findIdx? fun i =>
    match i.edit with
    | .label n => n = name
    | _ => false).getD script.length

def firstLine (cs : List Char) : List Char := cs.takeWhile (· != '\n')

/-- Follows one instruction. -/
def follow (m : Machine) (script : List Instruction) (quiet : Bool) (i : Instruction) (s : Edited) :
    Course × Edited :=
  match i.edit with
  | .substitute sub =>
    match sub.pattern <|> s.pattern with
    | none => (.ended false, { s with status := 1, vague := true })
    | some r =>
      let cs := wide s.space
      let (text, changed) := replaceIn r sub (2 * cs.length + 2) sub.first 0 none false cs
      let s := { s with pattern := some r }
      if !changed then (.on, s)
      else
        let s := { s with space := narrow text, replaced := true }
        let s := if sub.prints then s.line s.space else s
        (.on, sub.file.elim s fun route => s.toFile route s.space)
  | .exchange first second =>
    (.on, { s with
      space := narrow ((wide s.space).map fun c => ((first.zip second).lookup c).getD c) })
  | .print => (.on, s.line s.space)
  | .printFirst => (.on, s.raw (firstLine s.space ++ ['\n']))
  | .number => (.on, s.raw (shown s.number ++ ['\n']))
  | .spell => (.on, s.raw (spelled s.space ++ ['\n']))
  | .delete => (.dropped, s)
  | .deleteFirst =>
    if s.space.contains '\n' then
      (.again, { s with space := (s.space.dropWhile (· != '\n')).drop 1 })
    else (.dropped, s)
  | .next =>
    match s.coming with
    | [] => (.ended true, s)
    | l :: rest =>
      let s := (if quiet then s else s.line s.space).flush
      (.on, { s with space := l, coming := rest, number := s.number + 1 })
  | .joinNext =>
    match s.coming with
    | [] => (.ended true, s)
    | l :: rest =>
      let s := s.flush
      (.on, { s with space := s.space ++ s.lineEnd :: l, coming := rest, number := s.number + 1 })
  | .toHold => (.on, { s with hold := s.space })
  | .appendToHold => (.on, { s with hold := s.hold ++ s.lineEnd :: s.space })
  | .fromHold => (.on, { s with space := s.hold })
  | .appendHold => (.on, { s with space := s.space ++ s.lineEnd :: s.hold })
  | .swapHold => (.on, { s with space := s.hold, hold := s.space })
  | .append text => (.on, { s with queue := s.queue ++ [text] })
  | .insert text => (.on, s.raw text)
  | .change text =>
    if text.isEmpty then (.on, { s with space := [] })
    else
      let inRange := i.final.isSome && !i.inverted && s.active.any fun (index, _) =>
        (script[index]?).any fun j =>
          match j.edit with
          | .change other => other = text
          | _ => false
      (.dropped, if inRange then s else s.raw text)
  | .readFile route =>
    let text := ((m.files.read (m.placeOf route)).toOption.map octets).getD []
    (.on, { s with queue := s.queue ++ [text] })
  | .writeFile route => (.on, s.toFile route s.space)
  | .quit prints status => (.ended prints, { s with status })
  | .label _ | .opening | .closing => (.on, s)
  | .branch wanted name =>
    let goes := wanted.all (· = s.replaced)
    let s := if wanted.isSome then { s with replaced := false } else s
    (if goes then .at (placeOfLabel script name) else .on, s)

/-- Follows the instructions from an index on; `fuel` bounds how many. -/
def followFrom (m : Machine) (script : List Instruction) (quiet : Bool) :
    Nat → Nat → Edited → Course × Edited
  | 0, _, s => (.ended false, s)
  | fuel + 1, index, s =>
    match script[index]? with
    | none => (.done, s)
    | some i =>
      let (chosen, s) := i.selects index s
      if chosen = i.inverted then
        let next := match i.edit with
          | .opening => behindGroup 0 (index + 1) (script.drop (index + 1))
          | _ => index + 1
        followFrom m script quiet fuel next s
      else
        match follow m script quiet i s with
        | (.on, s) => followFrom m script quiet fuel (index + 1) s
        | (.at place, s) => followFrom m script quiet fuel place s
        | stop => stop

/-- Follows a script for line after line; `fuel` bounds how many instructions are followed in all. -/
def followLines (m : Machine) (script : List Instruction) (quiet : Bool) : Nat → Bool → Edited → Edited
  | 0, _, s => s
  | fuel + 1, fresh, s =>
    let start (s : Edited) : Edited :=
      match followFrom m script quiet (fuel + 1) 0 s with
      | (.done, s) =>
        followLines m script quiet fuel true (if quiet then s else s.line s.space).flush
      | (.again, s) => followLines m script quiet fuel false s.flush
      | (.ended true, s) => (if quiet then s else s.line s.space).flush
      | (.ended false, s) => s
      | (_, s) => followLines m script quiet fuel true s.flush
    if fresh then
      match s.coming with
      | [] => s
      | l :: rest =>
        start { s with space := l, coming := rest, number := s.number + 1, replaced := false }
    else start s

/-- A script that has no line before it. -/
def startEdit (lineEnd : Char) (script : List Instruction) (cs : List Char) : Edited where
  space := []
  hold := []
  number := 0
  coming :=
    let parts := Text.split lineEnd cs
    if parts.getLast? = some [] then parts.dropLast else parts
  whole := cs.isEmpty || cs.getLast? = some lineEnd
  lineEnd := lineEnd
  out := []
  owed := false
  queue := []
  replaced := false
  active := script.zipIdx.filterMap fun (i, index) =>
    match i.first, i.final with
    | some (.number 0), some _ => some (index, none)
    | _, _ => none
  pattern := none
  files := []
  status := 0
  vague := false

/-- The script that options and words give, and the other words. -/
def scriptOf (m : Machine) (g : Given) : List Char × Arguments :=
  let parts := g.options.filterMap fun (c, value) =>
    if c = 'e' then some value
    else if c = 'f' then
      let text := ((m.files.read (m.placeOf value)).toOption.map octets).getD []
      some (if text.getLast? = some '\n' then text.dropLast else text)
    else none
  if parts.isEmpty then (g.words.headD [], g.words.drop 1) else (joinWith ['\n'] parts, g.words)

/-- The letter of the option for changing files in place may have a suffix in the same word. -/
def inPlace (args : Arguments) : Arguments :=
  args.map fun a => if (octetsOf "--in-place").isPrefixOf a then ['-', 'i'] else a

def sedAccepted : Accepted :=
  accepting "ne:f:Ersizul:"
    [("quiet", 'n'), ("silent", 'n'), ("expression", 'e'), ("file", 'f'), ("regexp-extended", 'E'), ("separate", 's'),
      ("null-data", 'z')]

/-- The label of a branch that is nowhere. -/
def lostLabel? (script : List Instruction) : Option (List Char) :=
  script.findSome? fun i =>
    match i.edit with
    | .branch _ name => if name.isEmpty || placeOfLabel script name < script.length then none else some name
    | _ => none

/-- A text edited by a script. -/
def edited (m : Machine) (script : List Instruction) (quiet : Bool) (lineEnd : Char) (cs : List Char) :
    Edited :=
  followLines m script quiet (10000 + 20 * cs.length) true (startEdit lineEnd script cs)

/-- Writes the texts that a script has for files. -/
def withTexts (s : Edited) (m : Machine) : Machine :=
  s.files.foldl (fun m (route, text) =>
    match m.files.write (m.placeOf route) (ofOctets text) with
    | .ok files => { m with files }
    | .error f => m.refuse 4 (octetsOf "sed: couldn't open file " ++ route ++ octetsOf s!": {absence f}")) m

/-- Texts behind one another, each but the last with a line end at its end. -/
def closedButLast (lineEnd : Char) : List (List Char) → List Char
  | [] => []
  | [cs] => cs
  | cs :: more =>
    let rest := closedButLast lineEnd more
    if cs.isEmpty || rest.isEmpty || cs.getLast? = some lineEnd then cs ++ rest else cs ++ lineEnd :: rest

def sed : Utility := fun args m =>
  match readOptions sedAccepted false none (inPlace args) with
  | .error flaw => m.refuse 1 (octetsOf "sed: " ++ flaw.message)
  | .ok g =>
    match (g.values 'f').find? fun f => !m.files.isFile (m.placeOf f) with
    | some f => m.refuse 1 (octetsOf "sed: couldn't open file " ++ f ++ octetsOf ": No such file or directory")
    | none =>
    let (text, words) := scriptOf m g
    let expression := max 1 (g.values 'e').length
    match instructions (g.hasAny "Er") (text.length + 1) 0 text with
    | .error f =>
      let all := text.length - f.rest.length
      let before := ((text.take all).reverse.dropWhile (· != '\n')).length
      let place := if f.isWhole then 0 else if expression = 1 then all else all - before
      m.refuse 1 (octetsOf s!"sed: -e expression #{expression}, char {place}: {f.what}")
    | .ok script =>
      match lostLabel? script with
      | some name => m.refuse 4 (octetsOf "sed: can't find label for jump to \x60" ++ name ++ ['\''])
      | none =>
        let quiet := g.has 'n' || text.take 3 = ['#', 'n', '\n'] || text = ['#', 'n']
        let lineEnd := if g.has 'z' then Char.ofNat 0 else '\n'
        if g.has 'i' then
          forEach words (fun a m =>
            match found m a with
            | .ok (p, .file bytes) =>
              let s := edited m script quiet lineEnd (octets bytes)
              match (withTexts s m).files.write p (ofOctets s.out.reverse.flatten) with
              | .ok files => { m with files }
              | .error _ => m
            | .ok (_, .directory) =>
              m.refuse 4 (octetsOf "sed: couldn't edit " ++ a ++ octetsOf ": not a regular file")
            | .error what => m.refuse 2 (octetsOf "sed: can't read " ++ a ++ octetsOf s!": {what}")) m
        else
          let (texts, m) := sources "sed" words m
          let runs := if g.has 's' then texts.map (·.2) else [closedButLast lineEnd (texts.map (·.2))]
          runs.foldl (fun m cs =>
            let s := edited m script quiet lineEnd cs
            let m := (withTexts s m).say s.out.reverse.flatten
            if s.vague then
              m.refuse 1 (octetsOf "sed: -e expression #1, char 0: no previous regular expression")
            else if s.status = 0 then m
            else m.finish s.status) m

end Foreach.Shell.Utility
