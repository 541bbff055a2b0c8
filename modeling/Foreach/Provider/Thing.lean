import Foreach.Fault
import Foreach.Value.Basic

/-!
Things that modules offer.

A thing is a kind of things, one thing of a kind, something to be called, or a plain value. It has parts,
which are reached by their names. A kind or a procedure is called without arguments to see whether
what comes of it is a provider; anything else is looked at as it is.
-/

namespace Foreach

/-- A thing that may be a provider: the type that it declares, and the provider that it is if it can
generate items. -/
structure Candidate (α : Type) where
  type : Option Value
  provider? : Option α

/-- What each thing of a kind has under some name. -/
inductive Member where
  /-- A value, by the name of its own kind. -/
  | value (kindName : String)
  /-- A procedure that the kind `home` declares, which takes these arguments after the thing itself. -/
  | method (home : String) (arguments : List String)

/-- A kind of things. -/
structure Kind (α : Type) where
  name : String
  /-- Makes a new thing, which gets a serial number. -/
  make : Nat → Except Fault (Candidate α)
  members : List (String × Member)

/-- What a module offers. -/
inductive Thing (α : Type) where
  | kind (k : Kind α)
  /-- The thing of a kind that is shared under this number. -/
  | object (k : Kind α) (number : Nat)
  /-- Something else that can be called. -/
  | procedure (kindName : String) (call : Nat → Except Fault (Candidate α))
  /-- A value of the kind with this name. -/
  | value (kindName : String)

namespace Candidate

/-- The thing with its provider seen as something else. -/
def map {α β : Type} (f : α → β) (c : Candidate α) : Candidate β := ⟨c.type, c.provider?.map f⟩

/-- A thing that is no provider. -/
def nothing {α : Type} : Candidate α := ⟨none, none⟩

end Candidate

def Kind.map {α β : Type} (f : α → β) (k : Kind α) : Kind β :=
  ⟨k.name, fun serial => (k.make serial).map (Candidate.map f), k.members⟩

/-- The names as a sentence lists them. -/
def enumerated (names : List String) : String :=
  let quoted := names.map fun name => s!"'{name}'"
  let first := ", ".intercalate quoted.dropLast
  let last := (quoted.getLast?).getD ""
  match quoted.length with
  | 0 | 1 => last
  | 2 => s!"{first} and {last}"
  | _ => s!"{first}, and {last}"

/-- The failure of a call that leaves these arguments out. -/
def argumentsLeftOut (home name : String) (arguments : List String) : Fault :=
  let noun := if arguments.length = 1 then "argument" else "arguments"
  .mismatch s!"{home}.{name}() missing {arguments.length} required positional {noun}: {enumerated arguments}"

namespace Member

variable {α : Type}

/-- The member as a part of a thing. -/
def ofObject (name : String) : Member → Thing α
  | .value kindName => .value kindName
  | .method _ [] => .procedure "method" fun _ => .ok .nothing
  | .method home arguments =>
    .procedure "method" fun _ => .error (argumentsLeftOut home name arguments)

/-- The member as a part of the kind, where a procedure lacks the thing itself, too. -/
def ofKind (name : String) : Member → Thing α
  | .value kindName => .value kindName
  | .method home arguments =>
    .procedure "function" fun _ => .error (argumentsLeftOut home name ("self" :: arguments))

end Member

namespace Thing

variable {α : Type}

def map {β : Type} (f : α → β) : Thing α → Thing β
  | .kind k => .kind (k.map f)
  | .object k number => .object (k.map f) number
  | .procedure kindName call => .procedure kindName fun serial => (call serial).map (Candidate.map f)
  | .value kindName => .value kindName

/-- The thing that is to be a provider. What is made anew has an odd serial, what is shared an even one,
so that no two are taken for the same. -/
def candidate (t : Thing α) (serial : Nat) : Except Fault (Candidate α) :=
  match t with
  | .kind k => k.make (2 * serial + 1)
  | .object k number => k.make (2 * number)
  | .procedure _ call => call (2 * serial + 1)
  | .value _ => .ok .nothing

/-- What a message calls the thing. -/
def title : Thing α → String
  | .kind k => s!"type object '{k.name}'"
  | .object k _ => s!"'{k.name}' object"
  | .procedure kindName _ | .value kindName => s!"'{kindName}' object"

/-- The kind of some things, which cannot be made out of nothing. -/
def unmakeable (reason : String) : Thing α := .procedure "type" fun _ => .error (.mismatch reason)

/-- What a procedure of each kind lacks when one is to be made. -/
def kindOfProcedure (kindName : String) : Thing α :=
  match kindName with
  | "function" => unmakeable "function() missing required argument 'code' (pos 1)"
  | "method" => unmakeable "method expected 2 arguments, got 0"
  | "type" => unmakeable "type() takes 1 or 3 arguments"
  | kindName => unmakeable s!"cannot create '{kindName}' instances"

/-- The procedures of a text that can be called without arguments. -/
def textProcedures : List String :=
  ["capitalize", "casefold", "encode", "expandtabs", "format", "isalnum", "isalpha", "isascii",
    "isdecimal", "isdigit", "isidentifier", "islower", "isnumeric", "isprintable", "isspace", "istitle",
    "isupper", "lower", "lstrip", "rsplit", "rstrip", "split", "splitlines", "strip", "swapcase",
    "title", "upper"]

/-- The parts that name and describe a thing which is declared somewhere. -/
def isAbout (name : String) : Bool :=
  ["__name__", "__qualname__", "__module__", "__doc__"].contains name

/-- The part with a name. -/
def part? (t : Thing α) (name : String) : Option (Thing α) :=
  match t with
  | .kind k =>
    match k.members.lookup name with
    | some m => some (m.ofKind name)
    | none =>
      if name = "__class__" then some (kindOfProcedure "type")
      else if name = "__call__" then some (.procedure "method-wrapper" k.make)
      else if isAbout name then some (.value "str")
      else none
  | .object k _ =>
    match k.members.lookup name with
    | some m => some (m.ofObject name)
    | none =>
      if name = "__class__" then some (.kind k)
      else if name = "__module__" then some (.value "str")
      else if name = "__doc__" then some (.value "NoneType")
      else if name = "__dict__" then some (.value "dict")
      else none
  | .procedure kindName call =>
    if name = "__class__" then some (kindOfProcedure kindName)
    else if name = "__call__" then some (.procedure "method-wrapper" call)
    else if isAbout name then some (.value "str")
    else none
  | .value kindName =>
    if name = "__class__" then some (.procedure "type" fun _ => .ok .nothing)
    else if name = "__doc__" then some (.value "str")
    else if kindName = "str" ∧ name ∈ textProcedures then
      some (.procedure "builtin_function_or_method" fun _ => .ok .nothing)
    else none

/-- The thing that a way leads to, part by part. -/
def follow (t : Thing α) : List String → Except Fault (Thing α)
  | [] => .ok t
  | name :: way =>
    match t.part? name with
    | some part => part.follow way
    | none => .error (.noPart s!"{t.title} has no attribute '{name}'")

end Thing
end Foreach
