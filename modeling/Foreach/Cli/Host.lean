import Foreach.Definition.Archive
import Foreach.Provider.Catalogue
import Foreach.Runner.Command
import Foreach.Service
import Foreach.Settings.Load
import Foreach.Text.Style

/-!
What a command finds when it is started, and what it leaves behind.

Settings come from the environment and the file `.env`. The desk is what most commands begin with: the
providers that the settings name, and the store from its archive. What stands behind a name is loaded as
some token, which the host knows the provider of; what runs the command of an action is the host's as
well.
-/

namespace Foreach.Cli

/-- Where commands are run. The sequences of its providers begin in the state `idle`. -/
structure Host (σ α : Type) where
  directory : Place
  environment : List (String × String)
  catalogue : Catalogue α
  provider : α → Provider σ
  installed : List Installed
  idle : σ
  system : CommandRunner.System
  /-- The reading of the clock during a run. -/
  now : Number
  /-- The id of a run that is given none. -/
  freshRun : String

/-- What commands change: the files, and the clock that definitions are stamped with. -/
structure World where
  files : Files
  clock : Clock

/-- How a command ends. -/
inductive Ending where
  | done
  /-- A run has come to its end, but some of its actions failed. -/
  | incomplete
  /-- The command line is not understood. -/
  | misused
  /-- What was asked for cannot be done, for a reason that the user is told. -/
  | refused (message : String)
  /-- The file of definitions to load is no document. -/
  | unreadable (route : Route)
  /-- A failure that nothing was made for. -/
  | failed (f : Fault)
  /-- The program was made to end with this status. -/
  | left (status : UInt8)

namespace Ending

/-- The exit status. -/
def status : Ending → Nat
  | .done => 0
  | .incomplete | .misused => 2
  | .refused _ | .unreadable _ | .failed _ => 1
  | .left status => status.toNat

/-- An error line for the user, as it is printed. -/
def errorLine (message : String) : String := Text.showHalves (Text.unstyled s!"Error: {message}")

/-- The last line on the error stream. -/
def line? : Ending → Option String
  | .refused message => some (errorLine message)
  | .unreadable route => some (errorLine s!"Failed to parse {route.text}: ...")
  | _ => none

/-- The end of a command that a fault stops: a reported one is told to the user, and one with a status of
its own ends the program with that. -/
def ofFault (f : Fault) : Ending :=
  if f.isReported then .refused f.message else f.status?.elim (.failed f) .left

end Ending

/-- What a command says, and how it ends. -/
structure Reply where
  ending : Ending
  /-- The lines, each with whether it is for the error stream. -/
  lines : List (Bool × String)
  notices : List Notice

namespace Reply

/-- A command that ends without a word of its own. -/
def ends (e : Ending) : Reply := ⟨e, [], []⟩

/-- A command that says some lines and is done. -/
def tells (lines : List String) : Reply := ⟨.done, lines.map fun line => (false, line), []⟩

/-- Lines as they are printed, and whether they can all be: no bytes encode a half, so the output ends
before a line that has one. The error stream shows its code. -/
def printable : List (Bool × String) → List (Bool × String) × Bool
  | [] => ([], true)
  | (failed, line) :: rest =>
    let line := Text.unstyled line
    if !failed && line.toList.any Text.isHalf then ([], false)
    else
      let (lines, all) := printable rest
      ((failed, Text.showHalves line) :: lines, all)

/-- The reply as it is printed. -/
def printed (r : Reply) : Reply :=
  let (lines, all) := printable r.lines
  if all then { r with lines } else ⟨.failed (.unencodable "surrogates not allowed"), lines, r.notices⟩

/-- The lines on the error stream, the last one included. -/
def errorLines (r : Reply) : List String :=
  (r.lines.filter (·.1)).map (·.2) ++ r.ending.line?.toList

/-- The lines on the output stream. -/
def outputLines (r : Reply) : List String := (r.lines.filter fun (failed, _) => !failed).map (·.2)

end Reply

/-- The providers and the definitions that a command works with. -/
structure Desk (σ : Type) where
  registry : Registry (Provider σ)
  store : Store
  archive : Archive

/-- The service of a desk. -/
def Desk.service {σ : Type} (d : Desk σ) : Service σ := ⟨d.registry, d.store⟩

namespace Host

variable {σ α : Type}

/-- The text of the environment file; empty if there is none. -/
def dotenv (h : Host σ α) (files : Files) : Except Fault String :=
  match files.get? (h.directory ++ [".env"]) with
  | some (.file bytes) => (Utf8.decode bytes).elim (.error .undecodable) fun cs => .ok (String.ofList cs)
  | _ => .ok ""

/-- The settings in force. -/
def settings (h : Host σ α) (files : Files) : Except Fault Settings :=
  match h.dotenv files with
  | .error f => .error f
  | .ok text => (Settings.load [] h.environment text).mapError Fault.invalid

/-- The archive that the settings name. -/
def archive (h : Host σ α) (s : Settings) : Archive := ⟨s.storeRoute.place h.directory⟩

/-- The desk for some settings: first the providers are loaded, then the store. -/
def desk [BEq α] (h : Host σ α) (s : Settings) (files : Files) :
    Except Fault (Desk σ) × List Notice × Files :=
  match h.catalogue.load .empty h.installed s.entrypoints with
  | (.error f, notices) => (.error f, notices, files)
  | (.ok (registry, _), notices) =>
    match (h.archive s).load .empty files with
    | (.error f, _, files) => (.error f, notices, files)
    | (.ok (_, more), store, files) =>
      (.ok ⟨registry.map h.provider, store, h.archive s⟩, notices ++ more, files)

/-- A desk has none but the host's providers. -/
theorem finite_of_desk [BEq α] (h : Host σ α) (hfinite : ∀ a, (h.provider a).Finite) {s : Settings}
    {files after : Files} {d : Desk σ} {notices : List Notice}
    (hdesk : h.desk s files = (.ok d, notices, after)) : d.service.Finite := by
  unfold desk at hdesk
  split at hdesk
  next => cases hdesk
  next =>
    split at hdesk
    next => cases hdesk
    next =>
      cases hdesk
      intro entry hentry
      obtain ⟨⟨type, a⟩, -, rfl⟩ := List.mem_map.1 hentry
      exact hfinite a

end Host
end Foreach.Cli
