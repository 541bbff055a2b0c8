import Foreach.Record.Check
import Foreach.Text.Half
import Foreach.Value.Mapping

/-!
The options that a provider takes on the command line.
-/

namespace Foreach

/-- What an option's value is: any text, or a flag. -/
inductive OptionKind where
  | text
  | flag
  deriving DecidableEq, Repr

/-- An option: its kind, whether it may be repeated to build a list, and a help text. -/
structure OptionSpec where
  kind : OptionKind
  multiple : Bool
  description : Option String
  deriving DecidableEq, Repr

/-- The options of a provider by name, in the order of their declaration. -/
abbrev OptionSchema := List (String × OptionSpec)

namespace OptionKind

def name : OptionKind → String
  | .text => "string"
  | .flag => "boolean"

def check : Value → Check.Result OptionKind
  | .text s => if s = "string" then .ok .text else if s = "boolean" then .ok .flag else .error .notListed
  | _ => .error .notListed

end OptionKind

namespace OptionSpec

def check (v : Value) : Checked OptionSpec :=
  match v with
  | .map es =>
    let kind := Check.required es "type" OptionKind.check
    let multiple := Check.optional es "multiple" false Check.flag
    let description := Check.optional es "description" none Check.optionalText
    (Checked.both kind (Checked.both multiple description)).map fun (k, m, d) => ⟨k, m, d⟩
  | _ => .error [⟨[], .notRecord⟩]

/-- The record of an option. -/
def toValue (o : OptionSpec) : Value :=
  .record [("type", .text o.kind.name), ("multiple", .bool o.multiple),
    ("description", o.description.elim .null .text)]

end OptionSpec

namespace OptionSchema

/-- The entry of a schema, with its later spelling in the place of an earlier one. -/
def insert : OptionSchema → String → OptionSpec → OptionSchema
  | [], name, o => [(name, o)]
  | (n, p) :: rest, name, o =>
    if n = name then (n, o) :: rest else (n, p) :: insert rest name o

def checkEntry (k : Key) (v : Value) : Checked (String × OptionSpec) :=
  let inside (is : List Issue) := is.map (·.under (Check.location k))
  Checked.both (Check.key k) ((OptionSpec.check v).mapError inside)

/-- The options of a schema record. -/
def check (v : Value) : Checked OptionSchema :=
  let inOptions (is : List Issue) := is.map (·.under (.name "options"))
  match v with
  | .map es =>
    match Mapping.getText? es "options" with
    | none => .ok []
    | some (.map options) =>
      ((Checked.all (options.map fun (k, o) => checkEntry k o)).map fun entries =>
        entries.foldl (fun schema (name, o) => schema.insert name o) []).mapError inOptions
    | some _ => .error [.inField "options" .notMapping]
  | _ => .error [⟨[], .notRecord⟩]

/-- The record of a schema. -/
def toValue (s : OptionSchema) : Value :=
  .record [("options", .record (s.map fun (name, o) => (name, o.toValue)))]

/-- The entries in the order of their names. -/
def sorted (s : OptionSchema) : OptionSchema :=
  s.mergeSort fun (a, _) (b, _) => Text.precedes a b

end OptionSchema
end Foreach
