import Foreach.Provider.Registry
import Foreach.Provider.Thing
import Foreach.Text.Blank
import Foreach.Text.Split

/-!
Catalogues: where providers are loaded from.

A catalogue has modules, and a module offers things under names. A package is a module with others inside
it, which are imported after it. An entry point `module:name` says which thing is meant; that of an
installed one may be followed by names of parts. The thing, or what comes of calling it, is a provider if it
declares a type and can generate items. All providers are found before the first of them is registered.
-/

namespace Foreach

/-- A module: what it offers, or what becomes of it when it is imported. -/
inductive Module (α : Type) where
  | offers (things : List (String × Thing α))
  /-- A module that has others inside it. -/
  | package (things : List (String × Thing α))
  /-- Its import is given up for a reason. -/
  | broken (reason : String)
  /-- Its import fails in some other way. -/
  | failing (f : Fault)

/-- Modules by name; a module inside a package has the name of that, a dot and its own. -/
structure Catalogue (α : Type) where
  modules : List (String × Module α)

def Module.map {α β : Type} (f : α → β) : Module α → Module β
  | .offers things => .offers (things.map fun (name, t) => (name, t.map f))
  | .package things => .package (things.map fun (name, t) => (name, t.map f))
  | .broken reason => .broken reason
  | .failing f => .failing f

/-- The catalogue with each provider seen as something else. -/
def Catalogue.map {α β : Type} (f : α → β) (c : Catalogue α) : Catalogue β :=
  ⟨c.modules.map fun (name, m) => (name, m.map f)⟩

/-- An installed entry point, which is loaded without being asked for. -/
structure Installed where
  name : String
  target : String

namespace Catalogue

variable {α : Type}

/-- Why a module cannot be had: a failure of its own, or one to import it, with the reason. -/
inductive ImportFault where
  | other (f : Fault)
  | notImportable (reason : String)

/-- A text as a literal. -/
def shown (cs : List Char) : String := String.ofList (Literal.text (String.ofList cs))

/-- What every module has besides what it offers: values about itself. -/
def valuesOfModule : List (String × String) :=
  [("__name__", "str"), ("__file__", "str"), ("__doc__", "str"), ("__package__", "str"),
    ("__dict__", "dict")]

/-- The thing of a module under a name. -/
def thing? (things : List (String × Thing α)) (name : List Char) : Option (Thing α) :=
  let name := String.ofList name
  things.lookup name <|> (valuesOfModule.lookup name).map .value

/-- What a module offers, and whether it is a package, as soon as those around it are imported. -/
def importOne (c : Catalogue α) (name : List Char) :
    Except ImportFault (List (String × Thing α) × Bool) :=
  match c.modules.lookup (String.ofList name) with
  | none => .error (.notImportable s!"No module named {shown name}")
  | some (.broken reason) => .error (.notImportable reason)
  | some (.failing f) => .error (.other f)
  | some (.offers things) => .ok (things, false)
  | some (.package things) => .ok (things, true)

/-- The things that a module offers which lies inside another, by its name and the names from there on. -/
def importInside (c : Catalogue α) (home : List Char) :
    List (List Char) → Except ImportFault (List (String × Thing α))
  | [] => (c.importOne home).map (·.1)
  | next :: inner =>
    let inside := home ++ '.' :: next
    match c.importOne home with
    | .error f => .error f
    | .ok (_, true) => c.importInside inside inner
    | .ok (_, false) =>
      .error (.notImportable s!"No module named {shown inside}; {shown home} is not a package")

/-- The failure to import a module that is named by where it lies from here. -/
def relativeImport (name : List Char) : Fault :=
  .mismatch s!"the 'package' argument is required to perform a relative import for {shown name}"

/-- The things that a module offers. -/
def things (c : Catalogue α) (name : List Char) : Except ImportFault (List (String × Thing α)) :=
  match Text.split '.' name with
  | [[]] | [] => .error (.other (.badValue "Empty module name"))
  | [] :: _ => .error (.other (relativeImport name))
  | top :: inner => c.importInside top inner

/-- The provider that a thing is, and its type. -/
def accept (c : Candidate α) (source : String) : Except Fault (String × α) :=
  match c.type with
  | some (.text type) =>
    if type = "" then .error (.load (.untyped source))
    else
      match c.provider? with
      | some p => .ok (type, p)
      | none => .error (.load (.inert source))
  | _ => .error (.load (.untyped source))

/-- The provider that a thing is or makes. -/
def instantiate (t : Thing α) (source : String) (serial : Nat) : Except Fault (String × α) :=
  match t.candidate serial with
  | .error f => .error f
  | .ok c => accept c source

/-- The texts before and after the last colon. -/
def splitLast (cs : List Char) : Option (List Char × List Char) :=
  let tail := (cs.reverse.takeWhile (· != ':')).reverse
  if tail.length < cs.length then some (cs.take (cs.length - tail.length - 1), tail) else none

/-- The provider of an entry point. -/
def resolve (c : Catalogue α) (serial : Nat) (entrypoint : String) : Except Fault (String × α) :=
  match splitLast entrypoint.toList with
  | none => .error (.load (.malformed entrypoint))
  | some (home, name) =>
    match c.things home with
    | .error (.other f) => .error f
    | .error (.notImportable reason) =>
      .error (.load (.notImportable (String.ofList home) reason))
    | .ok things =>
      match thing? things name with
      | none => .error (.load (.absent (String.ofList name) (String.ofList home)))
      | some t => instantiate t entrypoint serial

/-- A character that may stand in the target of an installed entry point. -/
def isWordChar (c : Char) : Bool :=
  c.isAlphanum || c = '_' || c = '.' || (0x80 ≤ c.toNat && !Text.isBlank c)

/-- The module and the way to the thing that a target is made of; the way may be left out. -/
def target? (cs : List Char) : Option (List Char × List Char) :=
  let home := cs.takeWhile isWordChar
  if home = [] then none
  else
    match (cs.dropWhile isWordChar).dropWhile Text.isBlank with
    | [] => some (home, [])
    | ':' :: rest =>
      let rest := rest.dropWhile Text.isBlank
      let name := rest.takeWhile isWordChar
      let tail := Text.strip (rest.dropWhile isWordChar)
      if name ≠ [] ∧ (tail = [] ∨ (tail.head? = some '[' ∧ tail.getLast? = some ']')) then
        some (home, name)
      else none
    | rest =>
      if rest.head? = some '[' ∧ (Text.strip rest).getLast? = some ']' then some (home, []) else none

/-- What an installed entry point leads to; without a way it is the module itself, which is no
provider. -/
def findInstalled (c : Catalogue α) (target : String) : Except Fault (Thing α) :=
  match target? target.toList with
  | none => .error (.noPart "'NoneType' object has no attribute 'group'")
  | some (home, way) =>
    match c.things home with
    | .error (.other f) => .error f
    | .error (.notImportable reason) => .error (.general reason)
    | .ok things =>
      match (Text.split '.' way).filter (· ≠ []) with
      | [] => .ok (.value "module")
      | name :: parts =>
        match thing? things name with
        | some t => t.follow (parts.map String.ofList)
        | none => .error (.noPart s!"module {shown home} has no attribute {shown name}")

/-- The failure of an installed entry point, and whether it goes to the log. A thing that is no provider
is reported as such, any other ordinary failure is wrapped. -/
def installedFault (i : Installed) (f : Fault) : Fault × List Notice :=
  match f with
  | .load cause => (.load cause, [])
  | f =>
    if f.isOrdinary then (.load (.unloadable i.name f.message), [.failedEntryPoint]) else (f, [])

/-- The provider of an installed entry point. -/
def discover (c : Catalogue α) (serial : Nat) (i : Installed) :
    Except (Fault × List Notice) (String × α) :=
  match c.findInstalled i.target with
  | .error f => .error (installedFault i f)
  | .ok t => (instantiate t i.target serial).mapError (installedFault i)

/-- The providers of installed entry points, numbered from `serial` on. -/
def discoverAll (c : Catalogue α) (serial : Nat) :
    List Installed → Except (Fault × List Notice) (List (String × α))
  | [] => .ok []
  | i :: rest =>
    match c.discover serial i with
    | .error e => .error e
    | .ok p => (c.discoverAll (serial + 1) rest).map (p :: ·)

/-- The providers of entry points, numbered from `serial` on. -/
def resolveAll (c : Catalogue α) (serial : Nat) :
    List String → Except Fault (List (String × α))
  | [] => .ok []
  | e :: rest =>
    match c.resolve serial e with
    | .error f => .error f
    | .ok p => (c.resolveAll (serial + 1) rest).map (p :: ·)

/-- All providers to be loaded: those installed, then those asked for. -/
def providers (c : Catalogue α) (installed : List Installed) (entrypoints : List String) :
    Except (Fault × List Notice) (List (String × α)) :=
  match c.discoverAll 0 installed with
  | .error e => .error e
  | .ok found =>
    match c.resolveAll installed.length entrypoints with
    | .error f => .error (f, [])
    | .ok more => .ok (found ++ more)

/-- Registers providers, each under its type, and tells the types. The first that cannot be registered ends
it; those in front of it stay. -/
def registerAll [BEq α] :
    Registry α → List (String × α) → Except Fault (List String) × Registry α × List Notice
  | r, [] => (.ok [], r, [])
  | r, (type, p) :: rest =>
    match r.register type p true with
    | (.error f, r) => (.error f, r, [])
    | (.ok notices, r) =>
      let (result, r, more) := registerAll r rest
      (result.map (type :: ·), r, notices ++ more)

/-- Loads providers into a registry: their types, and what is in the registry then. -/
def loadInto [BEq α] (c : Catalogue α) (r : Registry α) (installed : List Installed)
    (entrypoints : List String) : Except Fault (List String) × Registry α × List Notice :=
  match c.providers installed entrypoints with
  | .error (f, notices) => (.error f, r, notices)
  | .ok found => registerAll r found

/-- The registry with the providers loaded, and their types. -/
def load [BEq α] (c : Catalogue α) (r : Registry α) (installed : List Installed)
    (entrypoints : List String) : Except Fault (Registry α × List String) × List Notice :=
  let (result, r, notices) := c.loadInto r installed entrypoints
  (result.map fun types => (r, types), notices)

end Catalogue
end Foreach
