import Foreach.Fault
import Foreach.Value.Literal

/-!
Forms of errors: what an error of each form is made of, and how its message is put together.

An error may be made of any values, and of other failures. A free form takes as many of them as there
are; the others have a field for each.
-/

namespace Foreach

/-- Something that an error is made of. -/
inductive Particular where
  | value (v : Value)
  /-- Another failure, by the name of its kind. -/
  | failure (kindName message : String)

namespace Particular

/-- The particular as a message shows it. -/
def display : Particular → String
  | .value v => v.display
  | .failure _ message => message

/-- The particular as one of several. -/
def literal : Particular → List Char
  | .value v => v.literal
  | .failure kindName message => kindName.toList ++ '(' :: Literal.text message ++ [')']

/-- The particular as what an error tells of itself: a text, a number or a truth value. -/
def told? : Particular → Option Value
  | .value (.text s) => some (.text s)
  | .value (.int n) => some (.int n)
  | .value (.bool b) => some (.bool b)
  | _ => none

end Particular

/-- The forms of errors. -/
inductive Form where
  | free
  | unknownType
  | undefined
  | dangling
  | conflict
  | action
  | generation

namespace Form

/-- The names of the fields of a form that has fields. -/
def fields : Form → List String
  | .free => []
  | .unknownType | .conflict => ["type_name"]
  | .undefined => ["name"]
  | .dangling => ["name", "type_name"]
  | .action => ["index", "cause"]
  | .generation => ["name", "processed", "cause"]

/-- The message of an error of a free form: that of the one thing it is made of, or all of them. -/
def freeMessage : List Particular → String
  | [] => ""
  | [p] => p.display
  | ps => String.ofList (Value.tupleLiteral (ps.map Particular.literal))

/-- The message of an error, if the form can be made of these things. -/
def message? (form : Form) (made : List Particular) : Option String :=
  match form, made.map Particular.display with
  | .free, _ => some (freeMessage made)
  | .unknownType, [type] => some (Fault.unknownType type).message
  | .undefined, [name] => some (Fault.undefined name).message
  | .dangling, [name, type] => some (Fault.dangling name type).message
  | .conflict, [type] => some (Fault.conflict type).message
  | .action, [index, cause] => some (Fault.actionMessage index cause)
  | .generation, [name, processed, cause] => some (Fault.generationMessage name processed cause)
  | _, _ => none

/-- The fields of an error that have something to tell. -/
def told (form : Form) (made : List Particular) : Mapping :=
  (form.fields.zip made).filterMap fun (name, p) => p.told?.map fun v => (.text name, v)

end Form
end Foreach
