import Foreach.Files.Basic
import Foreach.Runner.Basic
import Foreach.Text.Blank
import Foreach.Value.Literal

/-!
Actions that are commands.

The text of an item is the command's input and is in its environment. A command that ends in time and
with status zero adds two messages to the context, the text and its output; in every other case the
action fails and the context is as it was. What runs a command is left open: a system takes it with its
text and says what came of it.
-/

namespace Foreach

/-- What came of a process. -/
inductive Process where
  /-- It ended by itself, with a status or by a signal, and wrote to its two streams. -/
  | ended (ending : Exit) (out errors : List UInt8)
  /-- It was killed when its time was over, and this is how it ended then. -/
  | timedOut (ending : Exit)
  /-- It could not be started. -/
  | notStarted (f : Fault)
  /-- It was started, but it could not be sent its text or not be waited for. -/
  | abandoned (f : Fault)

namespace CommandRunner

/-- A command, its time limit in seconds, and its environment. It runs in the directory that a route
leads to from the current one, or in the current directory itself. -/
structure Config where
  command : String
  limit : Value
  current : Place
  route : Option Route
  environment : List (String × String)

/-- The directory of a command. -/
def Config.directory (c : Config) (files : Files) : Place :=
  c.route.elim c.current fun r => files.locate r c.current

/-- The number that a process returns; a signal counts negative. -/
def statusOf : Exit → Int
  | .exited status => status
  | .killed signal => -(signal : Int)

def decoded (bytes : List UInt8) : String := String.ofList (Utf8.decodeLossy bytes)

/-- What a failed command has to say: its errors or, if there are none, its output. -/
def detail (out errors : String) : String :=
  if Text.stripText errors = "" then Text.stripText out else Text.stripText errors

/-- The result of an action whose process came to this. -/
def conclude (c : Config) (text : String) (p : Process) : Except Fault ActionResult :=
  match p with
  | .notStarted f | .abandoned f => .error f
  | .timedOut ending => .error (.commandTimedOut c.limit.display (statusOf ending))
  | .ended ending out errors =>
    let status := statusOf ending
    if status = 0 then
      .ok ⟨text, decoded out, 0,
        [(.text "command", .text c.command), (.text "stderr", .text (decoded errors))]⟩
    else .error (.commandExited status (detail (decoded out) (decoded errors)) (decoded errors))

/-- The context after an action: a successful one has said its text and its output. -/
def converse (c : Context) : Except Fault ActionResult → Context
  | .error _ => c
  | .ok r =>
    (c.addMessage (.text "user") (.text r.text) []).addMessage (.text "assistant") (.text r.output) []

/-- The environment of a command: the text of the item comes before any variable of its name. -/
def environmentFor (c : Config) (text : String) : List (String × String) :=
  c.environment.filter (fun (name, _) => name != "ITERBATCH_TEXT") ++ [("ITERBATCH_TEXT", text)]

/-- The failure to make bytes of a text for a process, if there is one. -/
def unencodable? (s : String) : Option Fault := (Utf8.byteRefusal? s.toList).map .unencodable

/-- Why a variable cannot be given to a process: no name may have a sign in it that ends names. -/
def variableRefusal? : String × String → Option Fault
  | (name, value) =>
    unencodable? name <|>
      ((if name.toList.contains '=' then some (.badValue "illegal environment variable name") else none)
        <|> unencodable? value)

/-- Why a text cannot be given to a process: a zero would end it. -/
def zeroRefusal? (s : String) : Option Fault :=
  if s.toList.contains (Char.ofNat 0) then some (.badValue "embedded null byte") else none

/-- Why a process cannot be given a command, an environment and a directory. -/
def refusal? (c : Config) (text : String) : Option Fault :=
  let environment := environmentFor c text
  environment.findSome? variableRefusal? <|>
    ((unencodable? c.command <|> zeroRefusal? c.command) <|>
      (environment.findSome? (fun (name, value) => zeroRefusal? (name ++ value)) <|>
        c.route.bind fun r => unencodable? r.text <|> zeroRefusal? r.text))

/-- Why a process cannot run in a directory. -/
def directoryRefusal? (c : Config) (files : Files) : Option Fault :=
  let place := c.directory files
  if files.isDirectory place then none
  else
    let cause : FileFault :=
      if files.isFile place then .notDirectory else (files.obstacle? [] place).getD .missing
    some (.file cause (c.route.elim c.current.text Route.text))

/-- The most bytes that one argument or one variable of a process may have, the zero behind it
included. -/
def longestArgument : Nat := 131072

/-- Why a process cannot be started with arguments and variables that are too long. -/
def lengthRefusal? (c : Config) (text : String) : Option Fault :=
  let texts := c.command :: (environmentFor c text).map fun (name, value) => name ++ "=" ++ value
  if texts.any fun t => longestArgument ≤ t.utf8ByteSize then
    some (.system "[Errno 7] Argument list too long: '/bin/sh'")
  else none

/-- Why a process cannot be sent a text. -/
def inputRefusal? (text : String) : Option Fault :=
  match Utf8.encode? text.toList with
  | .ok _ => none
  | .error m => some (.unencodable m)

/-- Why a process cannot be started for a text. -/
def launchRefusal? (c : Config) (files : Files) (text : String) : Option Fault :=
  (refusal? c text <|> directoryRefusal? c files) <|> lengthRefusal? c text

/-- What runs a command for a text that it is sent, in a tree of files, to its end or until its time is
over. -/
abbrev System := Config → Files → String → Process × Files

/-- What comes of the command for a text in a tree of files. A process that cannot be sent its text does
nothing. -/
def launch (system : System) (c : Config) (files : Files) (text : String) : Process × Files :=
  match launchRefusal? c files text, inputRefusal? text with
  | some f, _ => (.notStarted f, files)
  | none, some f => (.abandoned f, files)
  | none, none => system c files text

/-- The action that a command makes of its processes, whatever starts them and whatever it works on. -/
def runnerOf {σ : Type} (c : Config) (start : σ → String → Process × σ) : Runner σ where
  name := "command"
  invoke text s :=
    let (process, state) := start s.state text
    let result := conclude c text process
    (result, ⟨converse s.context result, state⟩)

/-- The action that runs a command, the tree of files being its own state. -/
def runner (system : System) (c : Config) : Runner Files := runnerOf c (launch system c)

end CommandRunner
end Foreach
