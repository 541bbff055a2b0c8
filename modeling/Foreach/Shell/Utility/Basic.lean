import Foreach.Shell.Machine
import Foreach.Text.Split

/-!
What the utilities of a shell have in common.

A utility reads the input that is left, writes, and sets the status.
-/

namespace Foreach.Shell

abbrev Arguments := List (List Char)

/-- A utility, as what it does with its arguments. -/
abbrev Utility := Arguments → Machine → Machine

namespace Utility

def textOf (cs : List Char) : String := String.ofList cs

/-- Parts with blanks between them. -/
def spaced : Arguments → List Char
  | [] => []
  | [a] => a
  | a :: as => a ++ ' ' :: spaced as

/-- The lines of a text; the last one may have no end. -/
def lines (cs : List Char) : List (List Char) :=
  let parts := Text.split '\n' cs
  if parts.getLast? = some [] then parts.dropLast else parts

def unlines (ls : List (List Char)) : List Char := ls.flatMap (· ++ ['\n'])

/-- The lines of a text changed; a last one without an end stays without. -/
def mapLines (f : List Char → List Char) (cs : List Char) : List Char :=
  let text := unlines ((lines cs).map f)
  if cs.getLast? = some '\n' then text else text.dropLast

/-- A whole number with a sign or without. -/
def number? (cs : List Char) : Option Int :=
  match cs with
  | '-' :: ds => if ds ≠ [] ∧ ds.all Text.isDigit then some (-(Text.numeral ds : Int)) else none
  | '+' :: ds => if ds ≠ [] ∧ ds.all Text.isDigit then some (Text.numeral ds) else none
  | ds => if ds ≠ [] ∧ ds.all Text.isDigit then some (Text.numeral ds) else none

/-- The numeral of a number. -/
def shown (n : Nat) : List Char := Nat.toDigits 10 n

/-- A text filled to a width, with zeros or blanks in front or blanks behind. -/
def widened (left : Bool) (zero : Bool) (width : Nat) (cs : List Char) : List Char :=
  let missing := width - cs.length
  if left then cs ++ List.replicate missing ' '
  else if zero then
    let sign := cs.takeWhile fun c => c = '-' || c = '+'
    sign ++ List.replicate missing '0' ++ cs.drop sign.length
  else List.replicate missing ' ' ++ cs

def isOption (a : List Char) : Bool := a.head? = some '-' && a.length > 1

/-- The letters of the options in front, and the other arguments. -/
def takeOptions : Arguments → List Char × Arguments
  | [] => ([], [])
  | a :: rest =>
    if a = ['-', '-'] then ([], rest)
    else if isOption a then (let (letters, words) := takeOptions rest; (a.drop 1 ++ letters, words))
    else ([], a :: rest)

/-- The value of an option, in the same argument or the next, and the arguments without it. Letters of
other options may stand before its own. -/
def takeValue (letter : Char) : Arguments → Option (List Char) × Arguments
  | [] => (none, [])
  | a :: rest =>
    if !isOption a then (none, a :: rest)
    else
      let before := (a.drop 1).takeWhile (· != letter)
      let others := if before.isEmpty then [] else ['-' :: before]
      match a.drop (before.length + 1) with
      | _ :: inline =>
        if !before.all Char.isLower then
          (let (v, words) := takeValue letter rest; (v, a :: words))
        else if inline ≠ [] then (some inline, others ++ rest)
        else
          match rest with
          | v :: rest => (some v, others ++ rest)
          | [] => (none, others)
      | [] => (let (v, words) := takeValue letter rest; (v, a :: words))

/-- Why a file cannot be read. -/
def absence (f : Fault) : String :=
  match f with
  | .file .isDirectory _ => "Is a directory"
  | .file .notDirectory _ => "Not a directory"
  | _ => "No such file or directory"

/-- The complaint of a utility about one of its arguments. -/
def complaint (who : String) (about : List Char) (what : String) : List Char :=
  octetsOf s!"{who}: " ++ about ++ octetsOf s!": {what}"

/-- A complaint of a program that asks for its help to be read. -/
def misused (who : String) (status : Nat) (what : List Char) (m : Machine) : Machine :=
  m.refuse status (octetsOf s!"{who}: " ++ what ++ octetsOf s!"\nTry '{who} --help' for more information.")

/-- Parts with a separator between them. -/
def joinWith (separator : List Char) : List (List Char) → List Char
  | [] => []
  | [p] => p
  | p :: ps => p ++ separator ++ joinWith separator ps

/-- The status of a utility that cannot read a file. -/
def failureOf (who what : String) : Nat :=
  if who = "sed" && what = "Is a directory" then 4
  else if who = "sort" || who = "sed" || who = "grep" then 2
  else 1

/-- A character that a name is not shown with unless in quotes. -/
def needsQuotes (i : Nat) (c : Char) : Bool :=
  " !\"$&()*;<=>?[\\^|:\x27".toList.contains c || c.toNat = 0x60 || c.toNat < 32 || c.toNat = 127
    || (i = 0 && (c = '#' || c = '~'))

/-- A name as programs show it: in quotes where `always` says so or a character of it needs them. -/
def shownName (always : Bool) (name : List Char) : List Char :=
  let needs := always || name.isEmpty || (name.zipIdx).any (fun (c, i) => needsQuotes i c)
    || name = ['\x7b'] || name = ['\x7d']
  if !needs then name
  else if name.contains '\'' then
    if name.any fun c => c = '"' || c = '$' || c = '!' || c = '\\' || c.toNat = 0x60 then
      '\'' :: name.flatMap (fun c => if c = '\'' then octetsOf "'\\''" else [c]) ++ ['\'']
    else '"' :: name ++ ['"']
  else '\'' :: name ++ ['\'']

/-- How a utility says that it cannot read a file. -/
def unreadable (who : String) (a : List Char) (what : String) : List Char :=
  if who = "head" || who = "tail" then
    octetsOf s!"{who}: cannot open " ++ shownName true a ++ octetsOf s!" for reading: {what}"
  else if who = "tac" then octetsOf "tac: failed to open " ++ shownName true a ++ octetsOf s!" for reading: {what}"
  else if who = "sort" then octetsOf "sort: cannot read: " ++ shownName false a ++ octetsOf s!": {what}"
  else if who = "sed" then
    if what = "Is a directory" then octetsOf "sed: read error on " ++ a ++ octetsOf s!": {what}"
    else octetsOf "sed: can't read " ++ a ++ octetsOf s!": {what}"
  else if who = "rev" then octetsOf "rev: cannot open " ++ a ++ octetsOf s!": {what}"
  else if who = "wc" && a.isEmpty then octetsOf "wc: invalid zero-length file name"
  else if who = "grep" || who = "cmp" || who = "awk" then complaint who a what
  else complaint who (shownName false a) what

/-- What a route leads to, or why it leads nowhere. A slash at its end asks for a directory. -/
def found (m : Machine) (route : List Char) : Except String (Place × Node) :=
  let p := m.placeOf route
  if route.isEmpty then .error "No such file or directory"
  else
    match m.files.get? p with
    | none => .error (absence (m.files.absence p))
    | some (.file bytes) =>
      if route.getLast? = some '/' then .error "Not a directory" else .ok (p, .file bytes)
    | some .directory => .ok (p, .directory)

/-- A file that is read: its name, and its text or a complaint with its status. -/
structure Reading where
  name : List Char
  text : Except (Nat × List Char) (List Char)

/-- What a file holds or, under a dash, what is left to read. -/
def readingOf (who : String) (m : Machine) (a : List Char) : Reading × Machine :=
  if a = ['-'] || a = octetsOf "/dev/stdin" then (let (cs, m) := m.takeInput; (⟨a, .ok cs⟩, m))
  else if a = octetsOf "/dev/null" then (⟨a, .ok []⟩, m)
  else
    let refused (what : String) : Reading := ⟨a, .error (failureOf who what, unreadable who a what)⟩
    match found m a with
    | .ok (_, .file bytes) => (⟨a, .ok (octets bytes)⟩, m)
    | .ok (_, .directory) => (refused "Is a directory", m)
    | .error what => (refused what, m)

/-- What several files hold, or the input where there are none. -/
def readings (who : String) (args : Arguments) (m : Machine) : List Reading × Machine :=
  if args.isEmpty then (let (cs, m) := m.takeInput; ([⟨[], .ok cs⟩], m.finish 0))
  else args.foldl (fun (rs, m) a => (let (r, m) := readingOf who m a; (rs ++ [r], m))) ([], m.finish 0)

/-- The texts among files that are read, with their names. -/
def textsOf (rs : List Reading) : List (List Char × List Char) :=
  rs.filterMap fun r => r.text.toOption.map fun cs => (r.name, cs)

/-- Writes the complaint about a file that cannot be read. -/
def complainOf (m : Machine) (r : Reading) : Machine :=
  match r.text with
  | .ok _ => m
  | .error (status, what) => if what.isEmpty then m.finish status else m.refuse status what

/-- Writes what files give, `before` being those in front of them. A complaint comes behind what the files
in front of it give. -/
def weave (f : List (List Char × List Char) → List Char) :
    List (List Char × List Char) → List Reading → Machine → Machine
  | _, [], m => m
  | before, r :: rs, m =>
    match r.text with
    | .error _ => weave f before rs (complainOf m r)
    | .ok cs =>
      let now := before ++ [(r.name, cs)]
      weave f now rs (m.say ((f now).drop (f before).length))

/-- The texts of several files with their names, or the input where there are none; files that cannot be
read are complained of. -/
def sources (who : String) (args : Arguments) (m : Machine) :
    List (List Char × List Char) × Machine :=
  let (rs, m) := readings who args m
  (textsOf rs, rs.foldl complainOf m)

/-- The text of several files, or the input where there are none. -/
def contents (who : String) (args : Arguments) (m : Machine) : List Char × Machine :=
  let (found, m) := sources who args m
  (found.flatMap (·.2), m)

/-- Writes what each of several files gives. -/
def writeEach (who : String) (f : List Char → List Char) (args : Arguments) (m : Machine) : Machine :=
  let (rs, m) := readings who args m
  weave (fun texts => texts.flatMap fun (_, cs) => f cs) [] rs m

end Utility
end Foreach.Shell
