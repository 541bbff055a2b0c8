import Foreach.Shell.Builtin.Variables
import Foreach.Shell.Expand
import Foreach.Shell.Utility.All

/-!
The commands of the shell itself, and what names of commands stand for.
-/

namespace Foreach.Shell.Builtin

/-- Goes to another directory; a dash stands for the one before. -/
def changeDirectory : Utility := fun args m =>
  let args := (Utility.takeOptions args).2
  let home := m.value? (octetsOf "HOME")
  let back := args.head? = some ['-']
  match if back then m.value? (octetsOf "OLDPWD") <|> home else args.head? <|> home with
  | none => m.protest 2 (octetsOf (if back then "OLDPWD not set" else "HOME not set"))
  | some target =>
    let p := if target.isEmpty then m.directory else m.placeOf target
    if m.files.isDirectory p then
      let moved := ({ m with directory := p }.setVariable (octetsOf "OLDPWD") (octetsOf m.directory.text))
        |>.setVariable (octetsOf "PWD") (octetsOf p.text)
      if back then moved.answer (octetsOf p.text ++ ['\n']) else moved.finish 0
    else m.protest 2 (octetsOf "can't cd to " ++ target)

/-- The commands by name. -/
def all : List (String × Utility) :=
  [("exit", exit), ("return", goBack), ("break", jump .leave), ("continue", jump .goOn),
    ("kill", kill), ("read", read), ("cd", changeDirectory), ("chdir", changeDirectory),
    ("export", makeKnown), ("readonly", freeze), ("local", makeLocal), ("unset", unset), ("set", set),
    ("shift", shift), ("trap", trap), ("wait", wait), ("getopts", getopts), ("umask", umask),
    ("fg", noJob), ("bg", noJob), ("ulimit", Utility.succeed), ("hash", Utility.succeed),
    ("alias", Utility.succeed), ("unalias", Utility.succeed), ("jobs", Utility.succeed),
    ("times", fun _ m => m.answer (octetsOf "0m0.000000s 0m0.000000s\n0m0.000000s 0m0.000000s\n"))]

/-- The commands that are more a part of the shell than others: an error in them ends it, and assignments
in front of them stay. -/
def isSpecial (name : List Char) : Bool := Command.special.contains (Utility.textOf name)

/-- What a name stands for. -/
inductive Meaning where
  | keyword
  | function
  | special
  | ordinary
  /-- A program with its route. -/
  | program (route : List Char)

/-- The programs that run or look for commands. -/
def runners : List String := ["sh", "dash", "env", "xargs", "which"]

/-- Whether a name is that of a program. -/
def isProgram (name : List Char) : Bool :=
  (Utility.programs.lookup (Utility.textOf name)).isSome || runners.contains (Utility.textOf name)

/-- Whether a name is that of a program that does what a command of the shell does. -/
def isTwin (name : List Char) : Bool :=
  ["echo", "printf", "test", "[", "pwd", "true", "false", "kill"].contains (Utility.textOf name)

/-- The directories with programs. -/
def isProgramDirectory (d : List Char) : Bool := d = octetsOf "/usr/bin" || d = octetsOf "/bin"

/-- The route to a program by its name, in the first of the directories to look in that has it. -/
def route? (m : Machine) (name : List Char) : Option (List Char) :=
  let path := (m.value? (octetsOf "PATH")).getD (octetsOf "/usr/bin")
  if name.contains '/' then
    if isProgram (Utility.bareName name) || m.executable.contains (m.placeOf name) then some name else none
  else
    (Text.split ':' path).findSome? fun d =>
      let route := if d.isEmpty then name else d ++ '/' :: name
      if isProgramDirectory d then if isProgram name || isTwin name then some route else none
      else if m.executable.contains (m.placeOf route) then some route
      else none

def meaning? (m : Machine) (name : List Char) : Option Meaning :=
  let text := Utility.textOf name
  if Command.reserved.contains text then some .keyword
  else if (m.functions.lookup name).isSome then some .function
  else if isSpecial name then some .special
  else if (all.lookup text).isSome || (Utility.builtin.lookup text).isSome
      || ["command", "type"].contains text then some .ordinary
  else (route? m name).map .program

/-- Tells where programs are. -/
def which : Utility := fun args m =>
  let found := args.map (route? m)
  (m.say (Utility.unlines (found.filterMap id))).finish (if found.all Option.isSome then 0 else 1)

/-- A sentence about what a name stands for. -/
def explain (m : Machine) (name : List Char) : Machine :=
  let told (what : String) : Machine := m.say (name ++ octetsOf s!" is {what}\n")
  match meaning? m name with
  | some .keyword => told "a shell keyword"
  | some .function => told "a shell function"
  | some .special => told "a special shell builtin"
  | some .ordinary => told "a shell builtin"
  | some (.program route) => m.say (name ++ octetsOf " is " ++ route ++ ['\n'])
  | none => (m.say (name ++ octetsOf ": not found\n")).finish 127

/-- Tells what commands are. -/
def type : Utility := fun args m => args.foldl explain (m.finish 0)

/-- Tells what a name stands for in a single word. -/
def describe (m : Machine) (name : List Char) : Machine :=
  match meaning? m name with
  | some (.program route) => m.answer (route ++ ['\n'])
  | some _ => m.answer (name ++ ['\n'])
  | none => m.finish 127

end Foreach.Shell.Builtin
