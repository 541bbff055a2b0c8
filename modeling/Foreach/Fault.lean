import Foreach.Issue
import Foreach.Text.Literal

/-!
Everything that can go wrong, by its cause.

A fault is *ordinary* unless it is a hard stop or an exit: code that isolates or wraps failures lets
those pass. It is *reported* if its message is meant for the user, who sees it behind `Error:` on the
command line. An exit asks the program to end, with a status of its own; some of them pass for ordinary
failures on their way.
-/

namespace Foreach

/-- Why a provider cannot be loaded. -/
inductive LoadFault where
  | malformed (entrypoint : String)
  | notImportable (name reason : String)
  | absent (name home : String)
  | untyped (source : String)
  | inert (source : String)
  | unloadable (name reason : String)
  deriving DecidableEq, Repr

def LoadFault.message : LoadFault → String
  | .malformed entrypoint =>
    s!"Invalid provider entrypoint: {entrypoint} (expected 'module:attribute')"
  | .notImportable name reason => s!"Cannot import provider module '{name}': {reason}"
  | .absent name home => s!"Provider '{name}' not found in {home}"
  | .untyped source => s!"Provider from '{source}' does not declare a 'type'"
  | .inert source => s!"Provider from '{source}' has no generate() method"
  | .unloadable name reason => s!"Cannot load provider entry point '{name}': {reason}"

/-- Why a file cannot be used. -/
inductive FileFault where
  | missing
  | isDirectory
  | notDirectory
  | occupied
  /-- A name has too many bytes. -/
  | tooLong
  deriving DecidableEq, Repr

/-- A failure, by its cause. -/
inductive Fault where
  /-- A failure with a message for the user and no closer cause. -/
  | general (message : String)
  /-- Malformed input; nothing has changed. -/
  | usage (message : String)
  /-- No provider is registered for the type. -/
  | unknownType (type : String)
  | undefined (name : String)
  /-- The provider of a definition is no longer registered. -/
  | dangling (name type : String)
  /-- The type is taken by another provider. -/
  | conflict (type : String)
  | load (cause : LoadFault)
  /-- The action failed on the item with this number. -/
  | action (index : Int) (cause : Fault)
  /-- The provider failed after this many items. -/
  | generation (name : String) (processed : Int) (cause : Fault)
  /-- The command ended with a status other than zero, or by a signal, which counts negative. -/
  | commandExited (status : Int) (detail errors : String)
  | commandTimedOut (limit : String) (status : Int)
  | invalid (issues : List Issue)
  | runtime (message : String)
  | badValue (message : String)
  | system (message : String)
  /-- An operation met a value of a kind it is not made for. -/
  | mismatch (message : String)
  /-- A value lacks a part that was asked for. -/
  | noPart (message : String)
  /-- A byte string is not UTF-8. -/
  | undecodable
  /-- No bytes encode a text. -/
  | unencodable (message : String)
  /-- A number is too large for what is to be done with it. -/
  | overflow (message : String)
  /-- Nothing is kept under a key. -/
  | noEntry (message : String)
  /-- A sequence has no element at an index. -/
  | noElement (message : String)
  | file (cause : FileFault) (path : String)
  /-- Not an ordinary failure: it ends whatever runs. -/
  | hardStop (message : String)
  /-- The program is to end with this status. Code that isolates or wraps failures lets this pass, unless
  it is an ordinary one. -/
  | exit (status : UInt8) (ordinary : Bool) (message : String)
  deriving Repr

namespace Fault

/-- Whether a failure may be isolated or wrapped. -/
def isOrdinary : Fault → Bool
  | .hardStop _ => false
  | .exit _ ordinary _ => ordinary
  | _ => true

/-- The status that a failure ends the program with by itself, where nothing catches it. -/
def status? : Fault → Option UInt8
  | .exit status _ _ => some status
  | _ => none

/-- Whether the message is meant for the user. -/
def isReported : Fault → Bool
  | .general _ | .usage _ | .unknownType _ | .undefined _ | .dangling _ _ | .conflict _ | .load _
  | .action _ _ | .generation _ _ _ => true
  | _ => false

/-- What a failed command tells, if it tells anything. -/
def exitMessage (status : Int) (detail : String) : String :=
  let ending := s!"Action command exited with status {status}"
  if detail = "" then ending else s!"{ending}: {detail}"

/-- The text of a file failure, with its number. -/
def fileMessage (cause : FileFault) (path : String) : String :=
  let shown := String.ofList (Literal.text path)
  match cause with
  | .missing => s!"[Errno 2] No such file or directory: {shown}"
  | .isDirectory => s!"[Errno 21] Is a directory: {shown}"
  | .notDirectory => s!"[Errno 20] Not a directory: {shown}"
  | .occupied => s!"[Errno 17] File exists: {shown}"
  | .tooLong => s!"[Errno 36] File name too long: {shown}"

/-- The message of a failed action, for the number of its item and the cause as texts. -/
def actionMessage (index cause : String) : String := s!"Error processing item {index}: {cause}"

/-- The message of a failed provider, for the number of its items and the cause as texts. -/
def generationMessage (name processed cause : String) : String :=
  s!"Generation failed for @{name} after {processed} item(s): {cause}"

def message : Fault → String
  | .general m | .usage m | .runtime m | .badValue m | .system m | .mismatch m | .noPart m
  | .unencodable m | .overflow m | .noEntry m | .noElement m | .hardStop m | .exit _ _ m => m
  | .unknownType type => s!"Unknown iterable type: {type}"
  | .undefined name => s!"Iterable not found: @{name}"
  | .dangling name type => s!"Provider not found for type: {type} (iterable @{name})"
  | .conflict type => s!"Provider already registered for type: {type}"
  | .load cause => cause.message
  | .action index cause => actionMessage (toString index) cause.message
  | .generation name processed cause => generationMessage name (toString processed) cause.message
  | .commandExited status detail _ => exitMessage status detail
  | .commandTimedOut limit _ => s!"Action command timed out after {limit}s"
  | .invalid issues => s!"{issues.length} validation errors"
  | .undecodable => "invalid UTF-8"
  | .file cause path => fileMessage cause path

theorem status?_of_isReported {f : Fault} (h : f.isReported = true) : f.status? = none := by
  cases f <;> first | rfl | cases h

end Fault
end Foreach
