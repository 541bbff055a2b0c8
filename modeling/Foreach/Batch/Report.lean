import Foreach.Fault
import Foreach.Runner.Basic

/-!
Reports of batch runs, and the summary that is written down for one.

A run takes place between two readings of the clock. The clock may count in whole numbers or not;
durations are binary numbers in milliseconds and never below zero.
-/

namespace Foreach.Batch

/-- The outcome of a run so far: how many items were met, what their actions gave, and the failures with
the numbers of their items. -/
structure Report where
  iterable : String
  template : String
  started : Number
  ended : Number
  processed : Int
  results : List ActionResult
  failures : List (Int × Fault)
  cancelled : Bool
  aborted : Bool

/-- The part of a report that is written down. -/
structure Summary where
  iterable : String
  processed : Int
  succeeded : Int
  failed : List (Int × String)
  cancelled : Bool
  aborted : Bool
  duration : Binary64

/-- A clock reading as a binary number. -/
def asBinary : Number → Binary64
  | .int n => .ofInt n
  | .float x => x

/-- The difference of two readings, exact if both are whole. -/
def difference (later earlier : Number) : Binary64 :=
  match later, earlier with
  | .int m, .int n => .ofInt (m - n)
  | a, b => (asBinary a).sub (asBinary b)

/-- A reading that a binary number can hold. -/
def isBounded : Number → Bool
  | .int n => (Binary64.ofInt n).isFinite
  | .float _ => true

/-- Two readings with a duration between them: their difference is whole and can be held, or both can. -/
def areMeasurable (later earlier : Number) : Bool :=
  match later, earlier with
  | .int m, .int n => isBounded (.int (m - n))
  | a, b => isBounded a && isBounded b

namespace Report

/-- The report of a run that has just begun. -/
def start (iterable template : String) (now : Number) : Report :=
  ⟨iterable, template, now, .float (.ofInt 0), 0, [], [], false, false⟩

/-- No action failed and the run was not aborted. -/
def ok (r : Report) : Bool := r.failures.isEmpty && !r.aborted

def failed (r : Report) : Int := r.failures.length

def succeeded (r : Report) : Int := r.processed - r.failed

/-- Milliseconds from start to end. -/
def duration (r : Report) : Binary64 :=
  (Binary64.ofInt 0).max ((difference r.ended r.started).mul (.ofInt 1000))

/-- The report, if its duration can be told. -/
def measured (r : Report) : Except Fault Report :=
  if areMeasurable r.ended r.started then .ok r else .error (.overflow "int too large to convert to float")

def summary (r : Report) : Summary where
  iterable := r.iterable
  processed := r.processed
  succeeded := r.succeeded
  failed := r.failures.map fun (index, f) => (index, f.message)
  cancelled := r.cancelled
  aborted := r.aborted
  duration := r.duration

end Report

/-- A failed item as a record. -/
def failureRecord (failure : Int × String) : Value :=
  .record [("index", .int failure.1), ("error", .text failure.2)]

/-- The record of a summary. -/
def Summary.toMapping (s : Summary) : Mapping :=
  [(.text "iterable", .text s.iterable), (.text "processed", .int s.processed),
    (.text "succeeded", .int s.succeeded), (.text "failed", .list (s.failed.map failureRecord)),
    (.text "cancelled", .bool s.cancelled), (.text "aborted", .bool s.aborted),
    (.text "duration_ms", .float s.duration)]

end Foreach.Batch
