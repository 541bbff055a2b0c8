import Foreach.Fault
import Foreach.Json.Printer
import Foreach.Template.Path
import Foreach.Template.Token

/-!
Filling a template from the variables of an item.

A token takes the value at its path, else its default, else it is left as it is; an empty default is no
default. What is put in is not looked at again. Only a mapping that has no JSON form makes this fail.
-/

namespace Foreach.Template

/-- The failure of a value without a JSON form. -/
def unprintable : Fault := .mismatch "keys must be str, int, float, bool or None"

/-- A value as template text: containers as JSON, all else as plain text. -/
def format : Value → Except Fault (List Char)
  | .bool b => .ok (Json.boolName b)
  | v@(.list _) | v@(.tuple _) | v@(.map _) =>
    match Json.print .compact 0 v with
    | some cs => .ok cs
    | none => .error unprintable
  | v => .ok v.display.toList

/-- What a token is without a value for its path. -/
def fallback (body : List Char) : List Char :=
  match default? body with
  | some (c :: cs) => c :: cs
  | _ => verbatim body

/-- The text of one piece. -/
def fill (vars : Value) : Piece → Except Fault (List Char)
  | .literal c => .ok [c]
  | .token body =>
    match Path.lookup vars (key body) with
    | some v => format v
    | none => .ok (fallback body)

/-- The texts of pieces in a row; the first failure is that of the whole. -/
def fillAll (vars : Value) : List Piece → Except Fault (List Char)
  | [] => .ok []
  | p :: ps =>
    match fill vars p with
    | .error f => .error f
    | .ok cs =>
      match fillAll vars ps with
      | .error f => .error f
      | .ok ds => .ok (cs ++ ds)

/-- The text of a template with every token replaced. -/
def interpolate (template : String) (vars : Value) : Except Fault String :=
  (fillAll vars (pieces template.toList)).map String.ofList

end Foreach.Template
