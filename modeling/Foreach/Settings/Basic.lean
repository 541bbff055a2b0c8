import Foreach.Files.Route
import Foreach.Record.Check
import Foreach.Text.UpperCase

/-!
Settings: where definitions and ledgers are kept, which providers are loaded, and how actions run.

`Settings.check` reads each setting from a value if there is one. The log level is looked at last, and
only when everything else is in order.
-/

namespace Foreach

inductive LogLevel where
  | critical
  | error
  | warning
  | info
  | debug
  deriving DecidableEq, Repr

namespace LogLevel

def all : List LogLevel := [.critical, .error, .warning, .info, .debug]

def name : LogLevel → String
  | .critical => "CRITICAL"
  | .error => "ERROR"
  | .warning => "WARNING"
  | .info => "INFO"
  | .debug => "DEBUG"

/-- The weight of a level: a line is shown if its own is at least that of the level in force. -/
def weight : LogLevel → Nat
  | .critical => 50
  | .error => 40
  | .warning => 30
  | .info => 20
  | .debug => 10

/-- The level with a name, in any case and with blanks around it. -/
def ofText? (s : String) : Option LogLevel :=
  all.find? fun l => l.name = Text.upper (Text.stripText s)

end LogLevel

/-- The settings of one process. -/
structure Settings where
  storePath : String
  providers : String
  actionCommand : Option String
  actionTimeout : Int
  runsDirectory : String
  runLedger : Bool
  logLevel : LogLevel
  deriving DecidableEq, Repr

namespace Settings

/-- What is wrong with an unknown log level. -/
def levelIssue : Issue :=
  ⟨[], .rejected "ITERBATCH_LOG_LEVEL must be one of CRITICAL, DEBUG, ERROR, INFO, WARNING"⟩

/-- The settings with a log level in words. -/
def withLevel (level : String) (rest : LogLevel → Settings) : Checked Settings :=
  match LogLevel.ofText? level with
  | some l => .ok (rest l)
  | none => .error [levelIssue]

/-- The settings that a mapping gives, each in place of its standard value. -/
def check (given : Mapping) : Checked Settings :=
  let storePath := Check.optional given "STORE_PATH" ".iterbatch/iterables.json" Check.text
  let providers := Check.optional given "PROVIDERS" "" Check.text
  let command := Check.optional given "ACTION_COMMAND" none Check.optionalText
  let timeout := Check.optional given "ACTION_TIMEOUT_SEC" 1800 Check.whole
  let runsDirectory := Check.optional given "RUNS_DIR" ".iterbatch/runs" Check.text
  let ledger := Check.optional given "RUN_LEDGER" true Check.flag
  let level := Check.optional given "LOG_LEVEL" "WARNING" Check.text
  let all := Checked.both storePath (Checked.both providers (Checked.both command
    (Checked.both timeout (Checked.both runsDirectory (Checked.both ledger level)))))
  match all with
  | .error issues => .error issues
  | .ok (storePath, providers, command, timeout, runsDirectory, ledger, level) =>
    withLevel level fun l => ⟨storePath, providers, command, timeout, runsDirectory, ledger, l⟩

/-- The names of the settings, in order. -/
def names : List String :=
  ["STORE_PATH", "PROVIDERS", "ACTION_COMMAND", "ACTION_TIMEOUT_SEC", "RUNS_DIR", "RUN_LEDGER",
    "LOG_LEVEL"]

/-- The record of the settings. -/
def toValue (s : Settings) : Value :=
  .record [("STORE_PATH", .text s.storePath), ("PROVIDERS", .text s.providers),
    ("ACTION_COMMAND", s.actionCommand.elim .null .text), ("ACTION_TIMEOUT_SEC", .int s.actionTimeout),
    ("RUNS_DIR", .text s.runsDirectory), ("RUN_LEDGER", .bool s.runLedger),
    ("LOG_LEVEL", .text s.logLevel.name)]

def storeRoute (s : Settings) : Route := .ofText s.storePath

def runsRoute (s : Settings) : Route := .ofText s.runsDirectory

/-- The entry points of the providers to load. -/
def entrypoints (s : Settings) : List String :=
  (((Text.split ',' s.providers.toList).map Text.strip).filter (· ≠ [])).map String.ofList

/-- The command for actions: the given one or, where that is empty, the one that is set. -/
def command? (s : Settings) (given : Option String) : Option String :=
  let chosen := match given with
    | some c => if c = "" then s.actionCommand else some c
    | none => s.actionCommand
  chosen.filter (· ≠ "")

end Settings
end Foreach
