import Foreach.Settings.Basic
import Foreach.Settings.Dotenv
import Foreach.Value.Mapping

/-!
Where settings come from.

What is given directly comes first, then the environment, then the environment file. Variables have the
name of their setting behind `ITERBATCH_`, in any case; of several spellings the last counts.
-/

namespace Foreach.Settings

/-- The name of a variable, with all letters small. -/
def folded (name : String) : String := Check.lowered name

/-- The variable of a setting. -/
def variableOf (setting : String) : String := folded ("ITERBATCH_" ++ setting)

/-- The value of a variable, the last one if it is set more than once. -/
def lookup (vars : List (String × Option String)) (setting : String) : Option Value :=
  (vars.reverse.find? fun (name, _) => folded name = variableOf setting).bind fun (_, value) =>
    value.map .text

/-- What is given directly for a setting, in any case; of several spellings the last counts. -/
def given? (direct : Mapping) (setting : String) : Option Value :=
  (direct.reverse.find? fun (k, _) =>
    match k with
    | .text name => folded name = folded setting
    | _ => false).map (·.2)

/-- What is given for each setting, and from where it comes first. -/
def gathered (direct : Mapping) (environment file : List (String × Option String)) : Mapping :=
  names.filterMap fun setting =>
    let found := given? direct setting <|>
      (lookup environment setting <|> lookup file setting)
    found.map fun v => (.text setting, v)

/-- The settings of a process. -/
def load (direct : Mapping) (environment : List (String × String)) (dotenv : String) :
    Checked Settings :=
  check (gathered direct (environment.map fun (name, value) => (name, some value))
    (Dotenv.read environment dotenv))

end Foreach.Settings
