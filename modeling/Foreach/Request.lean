import Foreach.Fault
import Foreach.Text.Blank

/-!
The request of a batch run, `@<iterable> <template>`.

Blanks around the request and around the template do not count. One quote is taken off either end of
the template, whether or not the two match.
-/

namespace Foreach

/-- Which iterable to run over, and the template for each item. -/
structure Request where
  iterable : String
  template : String
  deriving DecidableEq, Repr

namespace Request

def usage : String := "Usage: foreach @<iterable> <template>"

def isQuote (c : Char) : Bool := c = '"' || c = '\''

/-- A text without a quote at its start. -/
def dropQuote : List Char → List Char
  | [] => []
  | c :: cs => if isQuote c then cs else c :: cs

/-- A text without one quote at either end. -/
def stripQuotes (cs : List Char) : List Char := (dropQuote (dropQuote cs).reverse).reverse

def notSpace (c : Char) : Bool := c != ' '

/-- The name up to the first space, and the template after it. -/
def split (cs : List Char) : List Char × List Char :=
  (cs.takeWhile notSpace, stripQuotes (Text.strip ((cs.dropWhile notSpace).drop 1)))

def parse (input : String) : Except Fault Request :=
  match Text.strip input.toList with
  | '@' :: rest =>
    match split rest with
    | ([], _) | (_, []) => .error (.usage usage)
    | (name, template) => .ok ⟨String.ofList name, String.ofList template⟩
  | _ => .error (.usage usage)

end Request
end Foreach
