import Foreach.Shell.Utility.Bytes
import Foreach.Shell.Utility.Order
import Foreach.Shell.Utility.Records
import Foreach.Shell.Utility.Tests
import Foreach.Shell.Utility.Transfer

/-!
The utilities by name.
-/

namespace Foreach.Shell.Utility

/-- The seconds in a unit of time by its letter. -/
def unitOfTime? (letters : List Char) : Option Nat :=
  match letters with
  | [] | ['s'] => some 1
  | ['m'] => some 60
  | ['h'] => some 3600
  | ['d'] => some 86400
  | _ => none

/-- The milliseconds that an argument stands for, a number with a unit or without. -/
def milliseconds? (a : List Char) : Option Nat :=
  let whole := a.takeWhile Text.isDigit
  let (fraction, rest) := match a.dropWhile Text.isDigit with
    | '.' :: more => (more.takeWhile Text.isDigit, more.dropWhile Text.isDigit)
    | rest => ([], rest)
  if whole.isEmpty && fraction.isEmpty then none
  else
    let thousandths := (fraction ++ ['0', '0', '0']).take 3
    (unitOfTime? rest).map fun unit => (1000 * Text.numeral whole + Text.numeral thousandths) * unit

def sleep : Utility := fun args m =>
  match args, args.find? fun a => (milliseconds? a).isNone with
  | [], _ => misused "sleep" 1 (octetsOf "missing operand") m
  | _, some a => misused "sleep" 1 (octetsOf "invalid time interval ‘" ++ a ++ octetsOf "’") m
  | _, none =>
    { m with slept := (args.filterMap milliseconds?).foldl (· + ·) m.slept, status := 0 }

/-- The place of a variable among those that commands see. -/
def bucket (name : List Char) : Nat :=
  let first := (name.head?.map Char.toNat).getD 0
  (name.foldl (fun n c => n + c.toNat) (first * 16)) % 39

/-- The variables as lines. -/
def printEnvironment (m : Machine) : Machine :=
  let ordered := m.environment.mergeSort fun (a, _) (b, _) => decide (bucket a ≤ bucket b)
  m.answer (unlines (ordered.map fun (name, value) => name ++ '=' :: value))

def printenv : Utility := fun args m =>
  match args with
  | [] => printEnvironment m
  | names =>
    let value? (name : List Char) := m.environment.lookup name
    let text := unlines (names.filterMap value?)
    (m.say text).finish (if names.all fun n => (value? n).isSome then 0 else 1)

/-- More lines than anyone takes. -/
def yes : Utility := fun args m =>
  let line := if args.isEmpty then ['y'] else spaced args
  m.answer (unlines (List.replicate 1000 line))

def succeed : Utility := fun _ m => m.finish 0

def fail : Utility := fun _ m => m.finish 1

/-- The utilities that are part of the shell. -/
def builtin : List (String × Utility) :=
  [("echo", echo), ("printf", printf), ("test", test), ("[", bracket), ("pwd", pwd),
    ("true", succeed), (":", succeed), ("false", fail)]

/-- The utilities that are programs. -/
def programs : List (String × Utility) :=
  [("cat", cat), ("wc", wc), ("head", head), ("tail", tail), ("tr", tr), ("rev", rev), ("cut", cut), ("fold", fold),
    ("paste", paste), ("nl", nl), ("tac", tac), ("sort", sort), ("uniq", uniq), ("comm", comm), ("cmp", cmp),
    ("grep", grep), ("egrep", fun args => grep (['-', 'E'] :: args)), ("fgrep", fun args => grep (['-', 'F'] :: args)), ("sed", sed), ("awk", awk), ("tee", tee), ("mkdir", makeDirectory), ("rmdir", removeDirectory),
    ("touch", touch), ("truncate", truncate), ("chmod", changeMode), ("ls", ls), ("rm", remove), ("find", find),
    ("cp", copy), ("mv", move), ("basename", basename), ("dirname", dirname), ("seq", seq), ("expr", expr),
    ("od", od), ("base64", base64), ("sleep", sleep), ("printenv", printenv), ("yes", yes), ("sync", succeed)]

/-- The name of a program without its directory, if it is one of the usual ones. -/
def bareName (name : List Char) : List Char :=
  ["/usr/bin/", "/bin/"].foldl (fun n d =>
    if d.toList.isPrefixOf n then n.drop d.length else n) name

/-- A program by its name or its full route. -/
def program? (name : List Char) : Option Utility := programs.lookup (textOf (bareName name))

end Foreach.Shell.Utility
