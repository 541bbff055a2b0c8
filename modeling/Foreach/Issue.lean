/-!
What is wrong with a record, and where.
-/

namespace Foreach

/-- One step of the way from a record to a value inside it: a field or text key, or a number. -/
inductive Location where
  | name (s : String)
  | number (n : Int)
  deriving DecidableEq, Repr

/-- Why a value is not acceptable. -/
inductive Issue.Cause where
  | missing
  | notText
  | notUtf8
  | notMapping
  | notRecord
  | notListed
  | notBool
  | unclearBool
  | notInt
  | unclearInt
  | fractionalInt
  /-- A number is infinite or none at all. -/
  | endlessInt
  /-- A number is too large to be taken over. -/
  | hugeInt
  | notTime
  | unclearTime
  | unclearDate
  | rejected (message : String)
  deriving DecidableEq, Repr

/-- An unacceptable value: the way to it and the cause. -/
structure Issue where
  path : List Location
  cause : Issue.Cause
  deriving DecidableEq, Repr

namespace Issue

def inField (field : String) (cause : Cause) : Issue := ⟨[.name field], cause⟩

/-- The same issue seen from one container further out. -/
def under (outer : Location) (i : Issue) : Issue := ⟨outer :: i.path, i.cause⟩

end Issue

/-- The value of a checked field, or its issues. -/
abbrev Checked (α : Type) := Except (List Issue) α

namespace Checked

/-- Two checks side by side: the issues of both are kept, in this order. -/
def both {α β : Type} (a : Checked α) (b : Checked β) : Checked (α × β) :=
  match a, b with
  | .ok x, .ok y => .ok (x, y)
  | .ok _, .error js => .error js
  | .error is, .ok _ => .error is
  | .error is, .error js => .error (is ++ js)

/-- A list of checks side by side. -/
def all {α : Type} : List (Checked α) → Checked (List α)
  | [] => .ok []
  | c :: cs => (both c (all cs)).map fun (x, xs) => x :: xs

end Checked
end Foreach
