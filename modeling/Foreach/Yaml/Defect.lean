/-!
What can be wrong with a YAML text.
-/

namespace Foreach.Yaml

/-- Why a YAML text has no value. -/
inductive Defect where
  /-- The text is not well formed, or a part of it has no meaning. -/
  | malformed
  /-- A scalar is spelled like a number or a day and is none. -/
  | badScalar
  /-- A number is too large for what it stands for. -/
  | tooLarge
  /-- A scalar is marked as a truth value and is none. -/
  | noTruth
  /-- A scalar is marked as a number and is empty. -/
  | emptyNumber
  /-- A scalar is marked as a point in time and is none. -/
  | noTime
  deriving DecidableEq, Repr

end Foreach.Yaml
