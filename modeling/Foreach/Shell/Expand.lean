import Foreach.Shell.Arithmetic
import Foreach.Shell.Glob
import Foreach.Shell.Machine
import Foreach.Shell.Utility.Basic
import Foreach.Text.Blank

/-!
Expanding words.

A word becomes a row of characters that remember where they come from. Characters of expansions outside
quotes are split into fields, and a field with signs of a pattern outside quotes becomes the names of the
files that fit it, if there are any.
-/

namespace Foreach.Shell

/-- How commands inside a command are run. -/
structure Deeper where
  /-- Runs a text in a shell; the text begins in a line. -/
  run : Nat → List Char → Machine → Machine
  /-- Runs a command that is kept in a shell. -/
  invoke : Command → Machine → Machine

namespace Machine

/-- A shell for a part of a command. Of the actions for signals it keeps those that ignore them. -/
def apart (m : Machine) : Machine :=
  { m with traps := m.traps.filter fun (_, action) => action.isEmpty, loops := 0 }

/-- Back in the shell that a part was run for: files, time, what was read and written and the last status
remain, and the end of the whole process. -/
def rejoin (m part : Machine) : Machine :=
  { m with
    files := part.files
    sources := part.sources
    origins := part.origins
    output := part.output
    fresh := part.fresh
    pending := m.pending ++ part.pending
    executable := part.executable
    slept := part.slept
    endless := part.endless
    status := match part.ending with
      | some (.exited status) => status
      | _ => part.status
    ending := match part.ending with
      | some (.killed signal) => some (.killed signal)
      | _ => m.ending }

/-- The characters that fields are split at. -/
def separators (m : Machine) : List Char := (m.value? (octetsOf "IFS")).getD [' ', '\t', '\n']

/-- The arguments as one text, with the first separator between them. -/
def joinedArguments (m : Machine) : List Char :=
  (m.arguments.intersperse (m.separators.take 1)).flatten

/-- The letters of the settings that are switched on. -/
def shownFlags (m : Machine) : List Char := "ubaCEVvxsnmiIfe".toList.filter m.has

/-- The value of a parameter. -/
def parameter? (m : Machine) (name : List Char) : Option (List Char) :=
  match name with
  | ['?'] => some (Utility.shown m.status)
  | ['$'] => some (Utility.shown processNumber)
  | ['#'] => some (Utility.shown m.arguments.length)
  | ['@'] | ['*'] => some (m.joinedArguments)
  | ['-'] => some (m.shownFlags)
  | ['!'] => m.jobs.head?.map fun (n, _) => Utility.shown n
  | ['0'] => some m.name
  | name =>
    if name.all Text.isDigit then m.arguments[Text.numeral name - 1]? else m.value? name

end Machine

/-- A character with where it comes from, or a sign between characters. -/
inductive Ink where
  | quoted (c : Char)
  | plain (c : Char)
  | expanded (c : Char)
  /-- The field is there even if nothing else is in it. -/
  | mark
  /-- A new field begins. -/
  | gap
  deriving DecidableEq

namespace Ink

def char? : Ink → Option Char
  | .quoted c | .plain c | .expanded c => some c
  | .mark | .gap => none

/-- The text of an expansion. -/
def ofText (quoted : Bool) (cs : List Char) : List Ink :=
  if quoted then .mark :: cs.map .quoted else cs.map .expanded

/-- What stands in an expansion outside quotes is as if expanded. -/
def asExpanded : Ink → Ink
  | .plain c => .expanded c
  | i => i

/-- What stands in an expansion inside quotes is as if quoted. -/
def asQuoted (quoted : Bool) (i : Ink) : Ink :=
  if quoted then (i.char?.map Ink.quoted).getD i else i.asExpanded

/-- Characters with whether they stand for themselves in a pattern. -/
def part? : Ink → Option (Bool × Char)
  | .quoted c => some (true, c)
  | .plain c | .expanded c => some (false, c)
  | .mark | .gap => none

end Ink

/-- The text of a row of characters, with a separator where fields meet. -/
def textOfInk (m : Machine) (is : List Ink) : List Char :=
  is.flatMap fun i => if i = .gap then m.separators.take 1 else i.char?.toList

/-- The pattern of a row of characters. -/
def globOfInk (is : List Ink) : List Glob := Glob.ofChars is.length (is.filterMap Ink.part?)

/-- A text without line ends at its end. -/
def dropLineEnds (cs : List Char) : List Char := Text.dropEndWhile (· = '\n') cs

/-- A shell that has come to its end, and has run what is to be run then. -/
def atEnd (d : Deeper) (m : Machine) : Machine :=
  match m.traps.lookup 0, m.ending with
  | some _, some (.killed _) => m
  | some action, ending =>
    let after := d.run 1 action { m with ending := none, jump := none, traps := m.traps.filter (·.1 != 0) }
    { after with ending := after.ending <|> (ending <|> some (.exited m.status)) }
  | none, _ => m

/-- What a command writes, and the shell after it. -/
def captured (d : Deeper) (line : Nat) (command : List Char) (m : Machine) : List Char × Machine :=
  let (channel, inner) := m.apart.pipe
  let after := atEnd d (d.run line command inner)
  let back := (m.rejoin after).drain channel
  let text := (after.written channel).filter (·.toNat != 0)
  (dropLineEnds text, { back with inner := back.status, status := m.status })

/-- The value of a parameter that may be missing, which is an error for a thorough shell. -/
def valueOrMissing (m : Machine) (name : List Char) : List Char × Machine :=
  match m.parameter? name with
  | some v => (v, m)
  | none =>
    if m.has 'u' then ([], m.abandon (name ++ octetsOf ": parameter not set")) else ([], m)

/-- Whether a parameter is a row of fields: all arguments, unless they are joined in quotes. -/
def isRow (quoted : Bool) (name : List Char) : Bool := name = ['@'] || (name = ['*'] && !quoted)

/-- All arguments as characters. -/
def argumentsInk (m : Machine) (quoted : Bool) : List Ink :=
  ((m.arguments.map (Ink.ofText quoted)).intersperse [.gap]).flatten

/-- A parameter as characters. -/
def parameterInk (m : Machine) (quoted : Bool) (name : List Char) : List Ink × Machine :=
  if isRow quoted name then (argumentsInk m quoted, m)
  else
    let (v, m) := valueOrMissing m name
    (Ink.ofText quoted v, m)

/-- The value of an arithmetic expression, and the shell after its assignments. -/
def summed (m : Machine) (text : List Char) : List Char × Machine :=
  match Arithmetic.evaluate m.vars text with
  | .error e => ([], m.abandon (e.message text))
  | .ok (n, vars) =>
    let assigned := vars.take (vars.length - m.vars.length)
    (Text.intNumeral n, assigned.foldr (fun (name, value) m => m.assign name value) m)

/-- A row of characters without what a pattern fits at its start or its end; no pattern looks across the
places where fields meet. -/
def trimmedInk (m : Machine) (quoted : Bool) (name : List Char)
    (trim : List Glob → List (Option Char) → List (Option Char)) (operand : List Ink) : List Ink :=
  let gap : List Ink := if quoted then [.gap, .mark] else [.gap]
  let ink (c : Option Char) : List Ink := c.elim gap fun c => [if quoted then .quoted c else .expanded c]
  let own := if isRow quoted name then (argumentsInk m false).map Ink.char?
    else ((m.parameter? name).getD []).map some
  (if quoted then [.mark] else []) ++ (trim (globOfInk operand) own).flatMap ink

/-- A parameter whose value is missing with a modifier, `bare` telling that the modifier has no operand. -/
def missingInk (m : Machine) (quoted : Bool) (name : List Char) (mo : Modifier) (orEmpty bare : Bool)
    (operand : List Ink) : List Ink × Machine :=
  match mo with
  | .assign =>
    if isName name then
      let value := textOfInk m operand
      (Ink.ofText quoted value, m.assign name value)
    else ([], m.abandon (name ++ octetsOf ": bad variable name"))
  | .demand =>
    let unset := octetsOf "parameter not set" ++ if orEmpty then octetsOf " or null" else []
    ([], m.abandon (name ++ octetsOf ": " ++ if bare then unset else textOfInk m operand))
  | _ => (operand.map (Ink.asQuoted quoted), m)

/-- Whether the operand of a modifier is looked at, the value of the parameter being there or not. -/
def Modifier.looks (missing : Bool) : Modifier → Bool
  | .fallback | .assign | .demand => missing
  | .instead | .dropEnd _ | .dropStart _ => !missing

mutual

/-- The characters of a piece, and the shell after it. -/
def pieceInk (d : Deeper) (m : Machine) : Piece → List Ink × Machine
  | .char quoted c => ([if quoted then .quoted c else .plain c], m)
  | .empty => ([.mark], m)
  | .parameter quoted name => parameterInk m quoted name
  | .length quoted name =>
    let (v, m) := valueOrMissing m name
    (Ink.ofText quoted (Utility.shown v.length), m)
  | .modified quoted name mo orEmpty operand =>
    let value := m.parameter? name
    let missing := value.isNone || (orEmpty && value = some [])
    let (is, m) := if mo.looks missing then wordInk d m operand else ([], m)
    if m.ending.isSome then ([], m)
    else
      match mo with
      | .dropEnd most =>
        if value.isNone then parameterInk m quoted name
        else (trimmedInk m quoted name (Glob.dropEnd · most) is, m)
      | .dropStart most =>
        if value.isNone then parameterInk m quoted name
        else (trimmedInk m quoted name (Glob.dropStart · most) is, m)
      | .instead => (if missing then Ink.ofText quoted [] else is.map (Ink.asQuoted quoted), m)
      | mo =>
        if missing then missingInk m quoted name mo orEmpty operand.isEmpty is
        else if isRow quoted name then ((if quoted then [.mark] else []) ++ argumentsInk m quoted, m)
        else (Ink.ofText quoted (value.getD []), m)
  | .output quoted line command =>
    let (text, m) := captured d (line.getD 1) command m
    (Ink.ofText quoted text, m)
  | .sum quoted text =>
    let (is, m) := wordInk d m text
    let (value, m) := summed m (textOfInk m is)
    (Ink.ofText quoted value, m)
  | .malformed => ([], m.abandon (octetsOf "Bad substitution"))

/-- The characters of a word; a shell that has come to its end expands no more. -/
def wordInk (d : Deeper) (m : Machine) : List Piece → List Ink × Machine
  | [] => ([], m)
  | p :: ps =>
    if m.ending.isSome then ([], m)
    else
      let (is, m) := pieceInk d m p
      let (more, m) := wordInk d m ps
      (is ++ more, m)

end

/-- The home directory of a user; that of the user who runs the shell has no name in front. -/
def homeOf (m : Machine) (user : List Char) : Option (List Char) :=
  if user.isEmpty then m.value? (octetsOf "HOME")
  else if user = octetsOf "root" then some (octetsOf "/root")
  else none

/-- The word with a tilde in front replaced by a home directory; the name of a user ends at a slash or,
where `ends` says so, at another character. -/
def tildeInk (m : Machine) (ends : Char → Bool) (is : List Ink) : List Ink :=
  match is with
  | .plain '~' :: rest =>
    let user := rest.takeWhile fun i =>
      match i with
      | .plain c => c != '/' && !ends c
      | _ => false
    let behind := rest.drop user.length
    let closed := match behind with
      | [] | .plain _ :: _ => true
      | _ => false
    match if closed then homeOf m (user.filterMap Ink.char?) else none with
    | some home => home.map .quoted ++ behind
    | none => is
  | is => is

/-- The text of a word that is not split. -/
def joined (d : Deeper) (m : Machine) (w : Word) : List Char × Machine :=
  let (is, m) := wordInk d m w
  (textOfInk m (tildeInk m (fun _ => false) is), m)

/-- The parts of a row of characters between colons outside quotes. -/
def colonParts : List Ink → List Ink → List (List Ink)
  | part, [] => [part.reverse]
  | part, .plain ':' :: is => part.reverse :: colonParts [] is
  | part, i :: is => colonParts (i :: part) is

/-- The text of a word that is assigned: a tilde may stand behind every colon. -/
def assignedText (d : Deeper) (m : Machine) (w : Word) : List Char × Machine :=
  let (is, m) := wordInk d m w
  let parts := (colonParts [] is).map (tildeInk m (· = ':'))
  (textOfInk m ((parts.intersperse [.plain ':']).flatten), m)

/-! ### Fields -/

/-- A field under construction: its characters, and whether it is there even if it has none. -/
structure Field where
  chars : List (Bool × Char)
  there : Bool

def Field.isThere (f : Field) : Bool := f.there || !f.chars.isEmpty

/-- The fields of characters, `f` being under construction. Blanks separate once however many there are;
`soft` tells that they have just done so, and another separator behind them adds nothing. -/
def split (separators : List Char) (soft : Bool) (f : Field) : List Ink → List (List (Bool × Char))
  | [] => if f.isThere then [f.chars] else []
  | i :: is =>
    let finished := if f.isThere then [f.chars] else []
    match i with
    | .mark => split separators soft { f with there := true } is
    | .gap => finished ++ split separators false ⟨[], false⟩ is
    | .quoted c => split separators false ⟨f.chars ++ [(true, c)], true⟩ is
    | .plain c => split separators false ⟨f.chars ++ [(false, c)], true⟩ is
    | .expanded c =>
      if separators.contains c then
        if c = ' ' || c = '\t' || c = '\n' then
          finished ++ split separators (soft || f.isThere) ⟨[], false⟩ is
        else if soft && !f.isThere then split separators false ⟨[], false⟩ is
        else f.chars :: split separators false ⟨[], false⟩ is
      else split separators false ⟨f.chars ++ [(false, c)], true⟩ is

/-- The names in a directory that fit a pattern; hidden ones only if it begins with a point. -/
def fittingNames (m : Machine) (directory : Place) (gs : List Glob) : List (List Char) :=
  let names := m.files.nodes.filterMap fun (q, _) =>
    if q.dropLast = directory then q.getLast?.map octetsOf else none
  let hidden := gs.head? = some (.char '.')
  ((['.'] :: ['.', '.'] :: names).filter fun n => (hidden || n.head? ≠ some '.') && Glob.fits gs n).mergeSort
    fun a b => decide (String.ofList a ≤ String.ofList b)

/-- The names of the files that a field stands for, or the field itself. -/
def globbed (m : Machine) (field : List (Bool × Char)) : List (List Char) :=
  let own := field.map (·.2)
  let name := (field.reverse.takeWhile fun (_, c) => c ≠ '/').reverse
  let before := own.take (field.length - name.length)
  let gs := Glob.ofChars name.length name
  if m.has 'f' || gs.all Glob.isLiteral then [own]
  else
    let directory := if before.isEmpty then m.directory else m.placeOf before
    match fittingNames m directory gs with
    | [] => [own]
    | names => names.map (before ++ ·)

/-- The fields of a word. -/
def fields (d : Deeper) (m : Machine) (w : Word) : List (List Char) × Machine :=
  let (is, m) := wordInk d m w
  let is := tildeInk m (fun _ => false) is
  ((split m.separators false ⟨[], false⟩ is).flatMap (globbed m), m)

/-- The fields of several words. -/
def allFields (d : Deeper) (m : Machine) : List Word → List (List Char) × Machine
  | [] => ([], m)
  | w :: ws =>
    let (fs, m) := fields d m w
    let (more, m) := allFields d m ws
    (fs ++ more, m)

/-! ### Assignments -/

/-- An assignment: the name before the sign, which stands without quotes, and the word behind it. -/
def assignment? (w : Word) : Option (List Char × Word) :=
  let name := (w.map Word.bareChar?).takeWhile (fun c => (c.map isNameChar).getD false)
  match w.drop name.length with
  | .char false '=' :: value =>
    let name := name.filterMap id
    if isName name then some (name, value) else none
  | _ => none

/-- The assignments in front of a command, and its words. -/
def takeAssignments : List Word → List (List Char × Word) × List Word
  | [] => ([], [])
  | w :: ws =>
    match assignment? w with
    | some a => (let (as, rest) := takeAssignments ws; (a :: as, rest))
    | none => ([], w :: ws)

def assignAll (d : Deeper) (m : Machine) : List (List Char × Word) → Machine
  | [] => m
  | (name, w) :: rest =>
    if m.ending.isSome then m
    else
      let (value, m) := assignedText d m w
      assignAll d (if m.ending.isSome then m else m.assign name value) rest

end Foreach.Shell
