import Foreach.Files.Basic
import Foreach.Runner.Basic
import Foreach.Shell.Command

/-!
The state of a shell while it runs a command.
-/

namespace Foreach.Shell

/-- Bytes as the characters with their numbers. -/
def octets (bytes : List UInt8) : List Char := bytes.map fun b => Char.ofNat b.toNat

def ofOctets (cs : List Char) : List UInt8 := cs.map fun c => UInt8.ofNat c.toNat

/-- The bytes of a text, as characters. -/
def octetsOf (s : String) : List Char := octets (Utf8.encode s.toList)

/-- Leaving a number of loops, or going on with the next turn of the last of them, or leaving a
function. -/
inductive Jump where
  | leave (loops : Nat)
  | goOn (loops : Nat)
  | back
  deriving DecidableEq, Repr

/-- What a stream is connected to. -/
inductive Stream where
  /-- A pipe, or one of the two streams that the shell began with. -/
  | channel (number : Nat)
  /-- Something to read. -/
  | source (number : Nat)
  | file (p : Place)
  /-- The device that keeps nothing and holds nothing. -/
  | nothing
  deriving DecidableEq

/-- A shell. -/
structure Machine where
  /-- How it was called, for its messages. -/
  name : List Char
  vars : List (List Char × List Char)
  /-- The variables that commands see. -/
  exported : List (List Char)
  arguments : List (List Char)
  functions : List (List Char × Command)
  files : Files
  directory : Place
  /-- The streams that are open, by their numbers. -/
  streams : List (Nat × Stream)
  /-- What is left to read, by the numbers of sources. -/
  sources : List (Nat × List Char)
  /-- The files that sources come from. -/
  origins : List (Nat × Place)
  /-- Written pieces, the first one first, each with the number of its channel. -/
  output : List (Nat × List Char)
  /-- The number for the next channel or source. -/
  fresh : Nat
  /-- The line of the command that runs. -/
  line : Nat
  /-- The command of the shell itself that runs, for its messages. -/
  speaker : Option (List Char)
  /-- The status of the last command. -/
  status : Nat
  /-- The status of the last command whose output was put into a word. -/
  inner : Nat
  ending : Option Exit
  jump : Option Jump
  /-- What the arms of a choice are tried with. -/
  subject : List Char
  /-- The settings that are switched on, by their letters. -/
  flags : List Char
  /-- A failing command does not end the shell, as in a condition. -/
  guarded : Bool
  /-- The variables that keep their values. -/
  frozen : List (List Char)
  /-- How many loops run inside one another. -/
  loops : Nat
  /-- What the variables of the function that runs were before it made them its own. -/
  locals : Option (List (List Char × Option (List Char)))
  /-- Whether a function or the text of another file runs, which can be left before its end. -/
  within : Bool
  /-- What runs when a signal comes or, under number zero, when the shell ends. -/
  traps : List (Nat × List Char)
  /-- Signals that have come and whose actions have not run. -/
  pending : List Nat
  /-- The part of a word with several options that is behind the last one read. -/
  optionsLeft : List Char
  /-- The permissions that new files do not have. -/
  mask : Nat
  /-- Files that can be run. -/
  executable : List Place
  /-- The statuses of commands that nobody waited for, by their numbers. -/
  jobs : List (Nat × Nat)
  /-- Whether something was written to an output that is closed. -/
  lost : Bool
  /-- Milliseconds slept. -/
  slept : Nat
  /-- Whether a loop has been given up that would not have come to an end. -/
  endless : Bool

namespace Machine

/-- A shell in a directory that has only an environment, and something to read. -/
def start (environment : List (List Char × List Char)) (files : Files) (directory : Place)
    (input : List Char) : Machine where
  name := octetsOf "/bin/sh"
  vars := environment.filter (fun (n, _) => n != octetsOf "IFS") ++
    [(octetsOf "IFS", [' ', '\t', '\n']), (octetsOf "OPTIND", ['1']), (octetsOf "PPID", octetsOf "4320"),
      (octetsOf "PS1", octetsOf "# "), (octetsOf "PS2", octetsOf "> "), (octetsOf "PS4", octetsOf "+ "),
      (octetsOf "PWD", octetsOf directory.text)].filter fun (n, _) => (environment.lookup n).isNone
  exported := environment.map (·.1)
  arguments := []
  functions := []
  files := files
  directory := directory
  streams := [(0, .source 0), (1, .channel 1), (2, .channel 2)]
  sources := [(0, input)]
  origins := []
  output := []
  fresh := 3
  line := 1
  speaker := none
  status := 0
  inner := 0
  ending := none
  jump := none
  subject := []
  flags := []
  guarded := false
  frozen := []
  loops := 0
  locals := none
  within := false
  traps := []
  pending := []
  optionsLeft := []
  mask := 0o022
  executable := []
  jobs := []
  lost := false
  slept := 0
  endless := false

/-- The number of the shell's process. -/
def processNumber : Nat := 4321

/-- Whether a setting is switched on. -/
def has (m : Machine) (flag : Char) : Bool := m.flags.contains flag

/-- Whether nothing more is run. -/
def stopped (m : Machine) : Bool := m.ending.isSome || m.jump.isSome || m.has 'n'

/-! ### Streams -/

/-- Connects a stream. -/
def connect (m : Machine) (number : Nat) (s : Stream) : Machine :=
  { m with streams := (number, s) :: m.streams.filter fun (n, _) => n != number }

def disconnect (m : Machine) (number : Nat) : Machine :=
  { m with streams := m.streams.filter fun (n, _) => n != number }

/-- Connects a stream to a text that can be read. -/
def connectText (m : Machine) (number : Nat) (cs : List Char) : Machine :=
  { m.connect number (.source m.fresh) with
    sources := (m.fresh, cs) :: m.sources, fresh := m.fresh + 1 }

/-- Connects a stream to the text of a file. -/
def connectFile (m : Machine) (number : Nat) (p : Place) (cs : List Char) : Machine :=
  { m.connectText number cs with origins := (m.fresh, p) :: m.origins }

/-- The shell after a file was emptied: nothing is left to read of it. -/
def emptied (m : Machine) (p : Place) : Machine :=
  { m with sources := m.sources.map fun (n, cs) => (n, if m.origins.lookup n = some p then [] else cs) }

/-- Connects the output to a new channel, and tells the number of it. -/
def pipe (m : Machine) : Nat × Machine :=
  (m.fresh, { m.connect 1 (.channel m.fresh) with fresh := m.fresh + 1 })

/-- What was written to a channel. -/
def written (m : Machine) (channel : Nat) : List Char :=
  (m.output.filter fun (n, _) => n == channel).flatMap (·.2)

/-- The shell without what was written to a channel. -/
def drain (m : Machine) (channel : Nat) : Machine :=
  { m with output := m.output.filter fun (n, _) => n != channel }

/-- Writes to a stream; to one that cannot be written to nothing is. -/
def write (m : Machine) (number : Nat) (cs : List Char) : Machine :=
  match m.streams.lookup number with
  | some (.channel n) => { m with output := m.output ++ [(n, cs)] }
  | some (.file p) =>
    match m.files.append p (ofOctets cs) with
    | .ok files => { m with files }
    | .error _ => m
  | some .nothing => m
  | some (.source _) | none => { m with lost := m.lost || number = 1 }

def say (m : Machine) (cs : List Char) : Machine := if cs.isEmpty then m else m.write 1 cs

def complain (m : Machine) (cs : List Char) : Machine := m.write 2 cs

/-- The input that is left. -/
def input (m : Machine) : List Char :=
  match m.streams.lookup 0 with
  | some (.source n) => (m.sources.lookup n).getD []
  | _ => []

/-- The shell with other input left. -/
def setInput (m : Machine) (cs : List Char) : Machine :=
  match m.streams.lookup 0 with
  | some (.source n) =>
    { m with sources := m.sources.map fun (k, left) => (k, if k = n then cs else left) }
  | _ => m

/-- All input; none is left. -/
def takeInput (m : Machine) : List Char × Machine := (m.input, m.setInput [])

/-! ### Answers -/

def finish (m : Machine) (status : Nat) : Machine := { m with status }

/-- Writes a text and succeeds. -/
def answer (m : Machine) (cs : List Char) : Machine := (m.say cs).finish 0

/-- Writes an error line and fails. -/
def refuse (m : Machine) (status : Nat) (line : List Char) : Machine :=
  (m.complain (line ++ ['\n'])).finish status

/-- Writes an error line of the shell itself and fails. -/
def protest (m : Machine) (status : Nat) (line : List Char) : Machine :=
  let speaker := match m.speaker with
    | some name => name ++ octetsOf ": "
    | none => []
  m.refuse status (m.name ++ octetsOf s!": {m.line}: " ++ speaker ++ line)

/-- An error that ends the shell. -/
def abandon (m : Machine) (line : List Char) : Machine :=
  { m.protest 2 line with ending := some (.exited 2) }

/-- Runs something in the name of a command of the shell. -/
def speaking (m : Machine) (name : List Char) (run : Machine → Machine) : Machine :=
  { run { m with speaker := some name } with speaker := m.speaker }

/-! ### Variables -/

def value? (m : Machine) (name : List Char) : Option (List Char) := m.vars.lookup name

def setVariable (m : Machine) (name value : List Char) : Machine :=
  { m with vars := m.vars.filter (fun (n, _) => n != name) ++ [(name, value)] }

def dropVariable (m : Machine) (name : List Char) : Machine :=
  { m with vars := m.vars.filter fun (n, _) => n != name }

/-- A variable set to a value, or not set at all. -/
def resetVariable (m : Machine) (name : List Char) (value : Option (List Char)) : Machine :=
  value.elim (m.dropVariable name) (m.setVariable name)

def publish (m : Machine) (name : List Char) : Machine :=
  if m.exported.contains name then m else { m with exported := m.exported ++ [name] }

/-- Sets a variable, unless it keeps its value. -/
def assign (m : Machine) (name value : List Char) : Machine :=
  if m.frozen.contains name then m.abandon (name ++ octetsOf ": is read only")
  else
    let m := m.setVariable name value
    if m.has 'a' then m.publish name else m

/-- The variables that commands see. -/
def environment (m : Machine) : List (List Char × List Char) :=
  m.vars.filter fun (name, _) => m.exported.contains name

/-- Where a route leads. -/
def placeOf (m : Machine) (route : List Char) : Place :=
  let text := String.ofList (Utf8.decodeLossy (ofOctets route))
  m.files.locate (.ofText text) m.directory

end Machine
end Foreach.Shell
