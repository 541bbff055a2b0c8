import Foreach.Fault
import Foreach.Options.Schema

/-!
Building a provider's spec from command line arguments.

An option is given as `--name value` or `--name=value`; a flag needs no value. The value after a text
option is taken whatever it looks like. A repeatable option collects its values into a list.
-/

namespace Foreach.Options

def defineUsage : String := "Usage: iterable define <name> --type <type> [options]"

/-- The truth value of a flag's text. -/
def readFlag (option raw : String) : Except Fault Bool :=
  let word := Check.lowered (Text.stripText raw)
  if ["1", "true", "yes", "on"].contains word then .ok true
  else if ["0", "false", "no", "off"].contains word then .ok false
  else .error (.usage s!"Option --{option} expects a boolean, got '{raw}'")

/-- An argument taken apart: the option's name and the value behind `=`. -/
structure Argument where
  name : String
  inline? : Option String

/-- An argument that begins with two dashes. -/
def Argument.read? (token : String) : Option Argument :=
  match token.toList with
  | '-' :: '-' :: rest =>
    let name := String.ofList (rest.takeWhile (· != '='))
    match rest.dropWhile (· != '=') with
    | [] => some ⟨name, none⟩
    | _ :: value => some ⟨name, some (String.ofList value)⟩
  | _ => none

/-- The names that a schema accepts, for a message. -/
def acceptedNames (schema : OptionSchema) : String :=
  match schema.sorted.map (fun (name, _) => "--" ++ name) with
  | [] => "<none>"
  | names => ", ".intercalate names

/-- The list that a repeatable option has built up. -/
def collected (spec : Mapping) (name : String) : List Value :=
  match Mapping.getText? spec name with
  | some (.list vs) => vs
  | _ => []

/-- The spec with one more value for an option: at the end of its list if it is repeatable, in place of
an earlier value if not. -/
def put (spec : Mapping) (name : String) (o : OptionSpec) (v : Value) : Mapping :=
  Mapping.setText spec name (if o.multiple then .list (collected spec name ++ [v]) else v)

/-- The spec after all arguments, from the spec so far. -/
def parseFrom (schema : OptionSchema) : Mapping → List String → Except Fault Mapping
  | spec, [] => .ok spec
  | spec, token :: rest =>
    match Argument.read? token with
    | none => .error (.usage s!"Unexpected argument '{token}'. {defineUsage}")
    | some a =>
      match schema.lookup a.name with
      | none =>
        .error (.usage s!"Unknown option --{a.name} (accepted: {acceptedNames schema})")
      | some o =>
        match o.kind, a.inline? with
        | .flag, none => parseFrom schema (put spec a.name o (.bool true)) rest
        | .flag, some raw =>
          match readFlag a.name raw with
          | .ok b => parseFrom schema (put spec a.name o (.bool b)) rest
          | .error f => .error f
        | .text, some value => parseFrom schema (put spec a.name o (.text value)) rest
        | .text, none =>
          match rest with
          | [] => .error (.usage s!"Option --{a.name} requires a value")
          | value :: rest => parseFrom schema (put spec a.name o (.text value)) rest

def parse (schema : OptionSchema) (args : List String) : Except Fault Mapping :=
  parseFrom schema [] args

end Foreach.Options
