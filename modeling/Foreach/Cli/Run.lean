import Foreach.Batch.Ending
import Foreach.Batch.Records
import Foreach.Cli.Command
import Foreach.Cli.Host
import Foreach.Definition.Manifest
import Foreach.Options.Arguments
import Foreach.Runner.Command
import Foreach.Yaml.Document

/-!
What each command does.

A command that changes the definitions makes its changes in the store it has loaded and saves that store
before it says so, so one that is stopped earlier leaves the archive as it found it. A run of an action need
not come to an end; it is run where it does.
-/

namespace Foreach.Cli

variable {σ α : Type}

/-- What a command does with a desk. -/
abbrev Work (σ : Type) := Desk σ → World → Reply × World

/-- Gets the desk and works with it. -/
def withDesk [BEq α] (h : Host σ α) (s : Settings) (w : World) (work : Work σ) : Reply × World :=
  match h.desk s w.files with
  | (.error f, notices, files) => (⟨.ofFault f, [], notices⟩, { w with files })
  | (.ok desk, notices, files) =>
    let (reply, w) := work desk { w with files }
    ({ reply with notices := notices ++ reply.notices }, w)

/-- Saves a store and says that it is done. -/
def keep (d : Desk σ) (store : Store) (told : String) (w : World) : Reply × World :=
  match d.archive.save store w.files with
  | (.error f, files) => (.ends (.failed f), { w with files })
  | (.ok (), files) => (.tells [told], { w with files })

/-- A name without the signs in front of it. -/
def bareName (name : String) : String := String.ofList (name.toList.dropWhile (· = '@'))

/-- The refusal of a name that nothing is defined under. -/
def unknownName (name : String) : Reply := .ends (.ofFault (.undefined name))

/-! ### Definitions -/

/-- Whether a definition may be asked for with this name and this type. -/
def isProper (name type : String) : Bool := name.toList.head? != some '-' && type != ""

/-- Makes or replaces a definition, `extra` being the arguments for the options of its provider. -/
def define (name type : String) (description : Option String) (extra : List String) : Work σ :=
  fun d w =>
    match d.registry.get? type with
    | none => (.ends (.ofFault (.unknownType type)), w)
    | some provider =>
      match Options.parse provider.options extra with
      | .error f => (.ends (.ofFault f), w)
      | .ok spec =>
        let proposal : Proposal := ⟨.text name, .text type, .map spec, description.elim .null .text⟩
        match d.store.define d.registry.hasKey w.clock proposal with
        | (.error f, _, clock) => (.ends (.ofFault f), { w with clock })
        | (.ok _, store, clock) =>
          keep d store s!"Defined iterable: @{name} ({type})" { w with clock }

/-- A definition in one line. -/
def briefLine (d : Definition) : String :=
  let line := s!"- @{d.name} = {d.type}"
  match d.description with
  | none => line
  | some text => if text = "" then line else s!"{line}: {text}"

/-- All definitions as one document. -/
def listing (ds : List Definition) : Except Fault String :=
  match ds.mapM Definition.document with
  | .error f => .error f
  | .ok vs => (Json.indented? (.list vs)).elim (.error Ledger.unprintable) .ok

/-- The definitions, as lines or as a document. -/
def list (asDocument : Bool) : Work σ := fun d w =>
  let ds := d.store.list
  if asDocument then
    match listing ds with
    | .error f => (.ends (.failed f), w)
    | .ok text => (.tells [text], w)
  else if ds.isEmpty then (.tells ["No iterables defined"], w)
  else (.tells ("Available iterables:" :: ds.map briefLine), w)

/-- The lines of a definition in front of its spec. -/
def headLines (d : Definition) : List String :=
  let about := match d.description with
    | none => []
    | some text => if text = "" then [] else [s!"Description: {text}"]
  s!"Iterable: @{d.name}" :: s!"Type: {d.type}" :: about

/-- All that is known of a definition. -/
def inspect (name : String) : Work σ := fun d w =>
  let name := bareName name
  match d.store.get? (.text name) with
  | none => (unknownName name, w)
  | some found =>
    let told := Reply.tells (headLines found)
    match Json.indented? (.map found.spec) with
    | none => ({ told with ending := .failed Ledger.unprintable }, w)
    | some spec =>
      (.tells (headLines found ++ [s!"Spec: {spec}", s!"Created: {found.created.display}",
        s!"Updated: {found.updated.display}"]), w)

/-- Takes a definition out. -/
def delete (name : String) : Work σ := fun d w =>
  let name := bareName name
  let (store, there) := d.store.delete (.text name)
  if there then keep d store s!"Deleted iterable: @{name}" w else (unknownName name, w)

/-- Defines all entries of a document, or none of them. -/
def loadDocument (route : Route) (document : Value) : Work σ := fun d w =>
  match Manifest.entries document with
  | .error f => (.ends (.ofFault f), w)
  | .ok entries =>
    match Manifest.defineAll d.registry.hasKey d.store w.clock entries with
    | (.error f, clock) => (.ends (.ofFault f), { w with clock })
    | (.ok store, clock) =>
      keep d store s!"Loaded {entries.length} iterable(s) from {route.text}" { w with clock }

/-- How a command ends whose file of definitions has no value. -/
def endingOfDefect (route : Route) : Yaml.Defect → Ending
  | .malformed => .unreadable route
  | .badScalar => .failed (.badValue "")
  | .tooLarge => .failed (.overflow "")
  | .noTruth => .failed (.noEntry "")
  | .emptyNumber => .failed (.noElement "")
  | .noTime => .failed (.noPart "")

/-- Defines the entries of a file. -/
def load (route : Route) (place : Place) : Work σ := fun d w =>
  match w.files.read place with
  | .error f => (.ends (.failed f), w)
  | .ok bytes =>
    match Utf8.decode bytes with
    | none => (.ends (.failed .undecodable), w)
    | some cs =>
      match Yaml.read cs with
      | .error defect => (.ends (endingOfDefect route defect), w)
      | .ok document => loadDocument route document d w

/-! ### Providers and the store -/

/-- An option in one line. -/
def optionLine (name : String) (o : OptionSpec) : String :=
  let many := if o.multiple then " (multiple)" else ""
  s!"  --{name} <{o.kind.name}>{many}"

/-- A provider and its options, in the order of their names. -/
def providerLines (type : String) (p : Provider σ) : List String :=
  s!"{type}: {p.description}" :: p.options.sorted.map fun (name, o) => optionLine name o

/-- The providers that are there. -/
def providers : Work σ := fun d w =>
  match d.registry.items with
  | [] =>
    (.tells ["No providers registered. Set ITERBATCH_PROVIDERS or install a provider plugin."], w)
  | items => (.tells (items.flatMap fun (type, p) => providerLines type p), w)

/-- The store in short, and where it is kept. -/
def status : Work σ := fun d w =>
  (.tells (d.store.lines ++ [s!"Store: {d.archive.place.text}"]), w)

/-! ### Runs -/

/-- The action of a run: the command in force, or none. -/
def actionOf (h : Host σ α) (s : Settings) (action : Option String) : Runner Files :=
  match s.command? action with
  | none => .noop _
  | some command =>
    CommandRunner.runner h.system ⟨command, .int s.actionTimeout, h.directory, none, h.environment⟩

/-- Opens the ledger of a run, if it is to have one. -/
def openLedger (h : Host σ α) (s : Settings) (runId : Option String) (ledger : Bool) (files : Files) :
    Except Fault (Option Ledger × Files) :=
  if ledger && s.runLedger then
    (Ledger.create files h.directory runId h.freshRun none s.runsRoute h.now).map fun (l, files) =>
      (some l, files)
  else .ok (none, files)

/-- What a run for a request does. -/
def job (h : Host σ α) (action : Runner Files) (r : Request) : Batch.Job Batch.Recorded :=
  ⟨r.iterable, r.template, Batch.Recorded.runner action, Batch.Recorded.observer h.now, none, h.now⟩

/-- What a run begins with, the notices being those on the way there. -/
structure Opening (σ : Type) where
  desk : Desk σ
  notices : List Notice
  start : Batch.Start σ Batch.Recorded

/-- Gets the desk and opens the ledger for a run, which has an empty context. Where that fails, the command
has its reply. -/
def openRun [BEq α] (h : Host σ α) (s : Settings) (w : World) (runId : Option String) (ledger : Bool) :
    Except (Reply × World) (Opening σ) :=
  match h.desk s w.files with
  | (.error f, notices, files) => .error (⟨.ofFault f, [], notices⟩, { w with files })
  | (.ok desk, notices, files) =>
    match openLedger h s runId ledger files with
    | .error f => .error (⟨.failed f, [], notices⟩, { w with files })
    | .ok (ledger?, files) => .ok ⟨desk, notices, .empty, h.idle, files, ledger?⟩

theorem finite_of_openRun [BEq α] {h : Host σ α} (hfinite : ∀ a, (h.provider a).Finite) {s : Settings}
    {w : World} {runId : Option String} {ledger : Bool} {o : Opening σ}
    (ho : openRun h s w runId ledger = .ok o) : o.desk.service.Finite := by
  unfold openRun at ho
  split at ho
  next => cases ho
  next hdesk =>
    split at ho
    next => cases ho
    next =>
      cases ho
      exact h.finite_of_desk hfinite hdesk

/-- How a fault of a run ends the command. Malformed input is answered with the usage, whatever it was
that found it malformed. -/
def endingOfFault : Fault → Ending
  | .usage _ => .refused Request.usage
  | f => .ofFault f

/-- How a run ends the command. -/
def endingOf : Except Fault Batch.Report → Ending
  | .error f => endingOfFault f
  | .ok report => if report.failures.isEmpty then .done else .incomplete

/-- What a command says of a run, and what the run leaves behind. -/
def Opening.answer (o : Opening σ) (w : World) :
    Except Fault (Batch.Outcome σ Batch.Recorded) → Reply × World
  | .error f => (⟨endingOfFault f, [], o.notices⟩, { w with files := o.start.runner.files })
  | .ok outcome =>
    (⟨endingOf outcome.result, outcome.trace.filterMap Batch.Event.line?, o.notices⟩,
      { w with files := outcome.runner.files })

/-- The run that an input asks for comes to an end from here. -/
def Opening.Ends (o : Opening σ) (h : Host σ α) (action : Runner Files) (input : String) : Prop :=
  Batch.Ends (job h action) o.desk.service o.start input

/-- A run comes to an end, if it can begin. -/
def RunEnds [BEq α] (h : Host σ α) (s : Settings) (w : World) (words : List String)
    (action runId : Option String) (ledger : Bool) : Prop :=
  ∀ o, openRun h s w runId ledger = .ok o → o.Ends h (actionOf h s action) (" ".intercalate words)

/-- Runs an action for each item of an iterable. -/
def foreach [BEq α] (h : Host σ α) (s : Settings) (w : World) (words : List String)
    (action runId : Option String) (ledger : Bool) (ends : RunEnds h s w words action runId ledger) :
    Reply × World :=
  match ho : openRun h s w runId ledger with
  | .error refused => refused
  | .ok o =>
    o.answer w (Batch.run (job h (actionOf h s action)) o.desk.service o.start (" ".intercalate words)
      (ends o ho))

section

variable [BEq α] {h : Host σ α} {s : Settings} {w : World} {words : List String} {action runId : Option String}
  {ledger : Bool} (ends : RunEnds h s w words action runId ledger)

theorem foreach_of_open {o : Opening σ} (ho : openRun h s w runId ledger = .ok o) :
    foreach h s w words action runId ledger ends =
      o.answer w (Batch.run (job h (actionOf h s action)) o.desk.service o.start (" ".intercalate words)
        (ends o ho)) := by
  unfold foreach
  split
  next herror => cases herror.symm.trans ho
  next hok =>
    cases hok.symm.trans ho
    rfl

theorem foreach_of_refused {refused : Reply × World} (ho : openRun h s w runId ledger = .error refused) :
    foreach h s w words action runId ledger ends = refused := by
  unfold foreach
  split
  next herror =>
    cases herror.symm.trans ho
    rfl
  next hok => cases hok.symm.trans ho

end

/-- A command comes to an end; any but a run of an action does. -/
def Command.Ends [BEq α] (h : Host σ α) (s : Settings) (w : World) : Command → Prop
  | .foreach words action runId ledger => RunEnds h s w words action runId ledger
  | _ => True

/-- Runs a command. -/
def Command.run [BEq α] (h : Host σ α) (s : Settings) (w : World) :
    (c : Command) → c.Ends h s w → Reply × World
  | .define name type description extra, _ =>
    let type := type.getD ""
    if isProper name type then withDesk h s w (Cli.define name type description extra)
    else (.ends (.refused Options.defineUsage), w)
  | .list asDocument, _ => withDesk h s w (Cli.list asDocument)
  | .inspect name, _ => withDesk h s w (Cli.inspect name)
  | .delete name, _ => withDesk h s w (Cli.delete name)
  | .load route, _ =>
    let place := w.files.locate route h.directory
    if w.files.isFile place then withDesk h s w (Cli.load route place) else (.ends .misused, w)
  | .providers, _ => withDesk h s w Cli.providers
  | .status, _ => withDesk h s w Cli.status
  | .foreach words action runId ledger, ends => Cli.foreach h s w words action runId ledger ends

/-- The settings and the command of a command line, or how it ends without one. The settings are looked at
as soon as its group is known. -/
def understand (h : Host σ α) (args : List String) (files : Files) : Except Ending (Settings × Command) :=
  match Group.ofArguments args with
  | none => .error .misused
  | some (group, rest) =>
    match h.settings files with
    | .error f => .error (.failed f)
    | .ok s => (Command.ofArguments group rest).elim (.error .misused) fun c => .ok (s, c)

/-- A command line comes to an end. -/
def Ends [BEq α] (h : Host σ α) (args : List String) (w : World) : Prop :=
  ∀ s c, understand h args w.files = .ok (s, c) → c.Ends h s w

/-- Runs a command line. -/
def run [BEq α] (h : Host σ α) (args : List String) (w : World) (ends : Ends h args w) : Reply × World :=
  match hc : understand h args w.files with
  | .error e => (.ends e, w)
  | .ok (s, c) =>
    let (reply, w) := c.run h s w (ends s c hc)
    (reply.printed, w)

/-- Where all providers open finite sequences only, every command comes to an end. -/
theorem Command.ends_of_finite [BEq α] {h : Host σ α} (hfinite : ∀ a, (h.provider a).Finite) (s : Settings)
    (w : World) (c : Command) : c.Ends h s w := by
  cases c with
  | foreach words action runId ledger =>
    exact fun o ho r _ => Batch.Job.ends_of_finite (finite_of_openRun hfinite ho) _ _
  | _ => trivial

theorem ends_of_finite [BEq α] {h : Host σ α} (hfinite : ∀ a, (h.provider a).Finite) (args : List String)
    (w : World) : Ends h args w :=
  fun s c _ => Command.ends_of_finite hfinite s w c

end Foreach.Cli
