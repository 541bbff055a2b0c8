import Foreach.Batch.Report

/-!
Counters over all runs.
-/

namespace Foreach.Batch

/-- What has been counted so far. -/
structure Metrics where
  batches : Nat
  aborted : Nat
  cancelled : Nat
  items : Int
  failures : Int
  duration : Binary64

namespace Metrics

def empty : Metrics := ⟨0, 0, 0, 0, 0, .ofInt 0⟩

/-- The counters after one more run. -/
def record (m : Metrics) (r : Report) : Metrics where
  batches := m.batches + 1
  aborted := m.aborted + r.aborted.toNat
  cancelled := m.cancelled + r.cancelled.toNat
  items := m.items + r.processed
  failures := m.failures + r.failed
  duration := m.duration.add r.duration

/-- The share of items that failed; zero where there are none. -/
def failureRate (m : Metrics) : Binary64 :=
  if m.items = 0 then .ofInt 0 else .ofRatio m.failures m.items

/-- The mean duration of a run; zero where there is none. -/
def averageDuration (m : Metrics) : Binary64 :=
  if m.batches = 0 then .ofInt 0 else m.duration.div (.ofInt m.batches)

/-- The counters with the quantities derived from them. -/
def toValue (m : Metrics) : Value :=
  .record [("batches_total", .ofNat m.batches), ("batches_aborted", .ofNat m.aborted),
    ("batches_cancelled", .ofNat m.cancelled), ("items_total", .int m.items),
    ("items_failed", .int m.failures), ("item_failure_rate", .float m.failureRate),
    ("duration_ms_total", .float m.duration), ("avg_batch_duration_ms", .float m.averageDuration)]

end Metrics
end Foreach.Batch
