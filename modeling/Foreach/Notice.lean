/-!
What is told to the log beside the answers.
-/

namespace Foreach

/-- A line for the log. -/
inductive Notice where
  /-- A registration replaced another provider of the type. -/
  | replacedProvider (type : String)
  /-- A record did not validate and was left out. -/
  | malformedRecord
  /-- The definitions file is not a JSON document. -/
  | unreadableFile
  /-- An installed provider could not be loaded. -/
  | failedEntryPoint
  | progress (text : String)
  | failure (text : String)
  deriving DecidableEq, Repr

/-- The line with its level. -/
def Notice.text : Notice → String
  | .replacedProvider type => s!"WARNING: Replacing provider registered for type '{type}'"
  | .malformedRecord => "WARNING: Skipping malformed iterable record"
  | .unreadableFile => "WARNING: Ignoring unreadable definitions file"
  | .failedEntryPoint => "ERROR: Failed to load provider entry point"
  | .progress text => s!"INFO: {text}"
  | .failure text => s!"ERROR: {text}"

end Foreach
