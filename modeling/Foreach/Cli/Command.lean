import Foreach.Cli.Arguments
import Foreach.Files.Route

/-!
The commands, and how a command line names one.

A command line names a group first: `foreach` is a command of its own, `iterable` has the commands on
definitions. Nothing but `--` may stand in front of either name.
-/

namespace Foreach.Cli

/-- What a command line asks for. -/
inductive Command where
  /-- Makes or replaces a definition; `extra` are the arguments for its provider. -/
  | define (name : String) (type description : Option String) (extra : List String)
  | list (asDocument : Bool)
  | inspect (name : String)
  | delete (name : String)
  | load (route : Route)
  | providers
  | status
  /-- Runs an action for each item; the words together are the request. -/
  | foreach (words : List String) (action runId : Option String) (ledger : Bool)
  deriving DecidableEq, Repr

/-- The first part of a command line. -/
inductive Group where
  | foreach
  | iterable
  deriving DecidableEq, Repr

namespace Command

def helpForm : Form := ⟨"help", none, false⟩

def defineForms : Forms := ⟨[⟨"type", some 't', true⟩, ⟨"description", some 'd', true⟩, helpForm], true⟩

def listForms : Forms := ⟨[⟨"json", none, false⟩, helpForm], false⟩

def plainForms : Forms := ⟨[helpForm], false⟩

def foreachForms : Forms :=
  ⟨[⟨"command", some 'c', true⟩, ⟨"run-id", none, true⟩, ⟨"ledger", none, false⟩,
    ⟨"no-ledger", none, false⟩, helpForm], false⟩

/-- Arguments taken apart, unless they ask for help. -/
def argumentsOf (forms : Forms) (args : List String) : Option Arguments :=
  (forms.parse args).filter fun a => !a.isGiven "help"

/-- Whether a ledger is wanted; the later of the two options counts. -/
def wantsLedger (a : Arguments) : Bool :=
  match a.given.find? fun (name, _) => name = "ledger" || name = "no-ledger" with
  | some (name, _) => name = "ledger"
  | none => true

def ofDefine (a : Arguments) : Option Command :=
  match a.words with
  | [] => none
  | name :: extra => some (.define name (a.value? "type") (a.value? "description") extra)

def ofForeach (a : Arguments) : Option Command :=
  if a.words = [] then none
  else some (.foreach a.words (a.value? "command") (a.value? "run-id") (wantsLedger a))

/-- The command for a single word. -/
def ofWord (make : String → Command) (a : Arguments) : Option Command :=
  match a.words with
  | [word] => some (make word)
  | _ => none

/-- The command that takes no words. -/
def alone (c : Command) (a : Arguments) : Option Command := if a.words = [] then some c else none

/-- The command on definitions with a name, and its arguments. -/
def ofName (name : String) (args : List String) : Option Command :=
  match name with
  | "define" => (argumentsOf defineForms args).bind ofDefine
  | "list" => (argumentsOf listForms args).bind fun a => alone (.list (a.isGiven "json")) a
  | "show" => (argumentsOf plainForms args).bind (ofWord .inspect)
  | "delete" => (argumentsOf plainForms args).bind (ofWord .delete)
  | "load" => (argumentsOf plainForms args).bind (ofWord fun route => .load (.ofText route))
  | "providers" => (argumentsOf plainForms args).bind (alone .providers)
  | "status" => (argumentsOf plainForms args).bind (alone .status)
  | _ => none

end Command

/-- The name in front, and the arguments behind it. -/
def nameAhead : List String → Option (String × List String)
  | [] => none
  | [name] => some (name, [])
  | first :: second :: rest =>
    if first = "--" then some (second, rest) else some (first, second :: rest)

/-- The group that a command line names, and the arguments behind it. -/
def Group.ofArguments (args : List String) : Option (Group × List String) :=
  (nameAhead args).bind fun (name, rest) =>
    match name with
    | "foreach" => some (.foreach, rest)
    | "iterable" => some (.iterable, rest)
    | _ => none

/-- The command that the arguments of a group ask for. -/
def Command.ofArguments (group : Group) (args : List String) : Option Command :=
  match group with
  | .foreach => (argumentsOf foreachForms args).bind ofForeach
  | .iterable => (nameAhead args).bind fun (name, rest) => ofName name rest

end Foreach.Cli
