import Foreach.Text.Digits
import Foreach.Text.Split
import Foreach.Value.Mapping

/-!
Dotted paths into a value.

A path is followed one segment at a time: through a mapping by text key, through a list or tuple by the
index that the segment's digits denote. Null counts as missing wherever it is met.
-/

namespace Foreach.Path

/-- The parts of a path between dots, empty ones included. -/
def segments (path : List Char) : List (List Char) := Text.split '.' path

/-- The index that a segment denotes, if it is made of ASCII digits. -/
def index? (segment : List Char) : Option Nat :=
  if segment ≠ [] ∧ segment.all Text.isDigit then some (Text.numeral segment) else none

/-- One step from a value, null or not. -/
def child? (v : Value) (segment : List Char) : Option Value :=
  match v with
  | .map es => Mapping.getText? es (String.ofList segment)
  | .list vs => (index? segment).bind (vs[·]?)
  | .tuple vs => (index? segment).bind (vs[·]?)
  | _ => none

/-- A value that is not null. -/
def present : Value → Option Value
  | .null => none
  | v => some v

def step (v : Value) (segment : List Char) : Option Value := (child? v segment).bind present

/-- The value at the end of a path. -/
def follow : Value → List (List Char) → Option Value
  | v, [] => some v
  | v, s :: ss => (step v s).bind (follow · ss)

/-- The value that a dotted path leads to. -/
def lookup (v : Value) (path : List Char) : Option Value := follow v (segments path)

end Foreach.Path
