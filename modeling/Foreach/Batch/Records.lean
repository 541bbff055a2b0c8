import Foreach.Batch.Execute
import Foreach.Ledger

/-!
What is kept of runs: the counters over all of them, and the ledger of each one that has one.

A run with a ledger writes it into the same tree of files that its action works on, event by event. So
what the action does to the ledger's files, the ledger meets when the next event comes.
-/

namespace Foreach.Batch

/-- What a run on files works on: the tree of files, and the ledger of the run, if it has one. -/
structure Recorded where
  files : Files
  ledger? : Option Ledger

namespace Recorded

/-- Writes an event into the ledger. -/
def log (now : Number) (e : Entry) (r : Recorded) : Except Fault Unit × Recorded :=
  match r.ledger? with
  | none => (.ok (), r)
  | some l =>
    let (result, l, files) := l.log r.files e.name e.data now
    (result, ⟨files, some l⟩)

/-- Writes the summary of the run. -/
def finalize (now : Number) (summary : Summary) (r : Recorded) : Except Fault Unit × Recorded :=
  match r.ledger? with
  | none => (.ok (), r)
  | some l =>
    match l.finalize r.files summary.toMapping now with
    | .error f => (.error f, r)
    | .ok files => (.ok (), { r with files })

def observer (now : Number) : Observer Recorded := ⟨log now, finalize now⟩

/-- An action on files as the action of a recorded run. -/
def runner (a : Runner Files) : Runner Recorded where
  name := a.name
  invoke text s :=
    let (result, t) := a.invoke text ⟨s.context, s.state.files⟩
    (result, ⟨t.context, { s.state with files := t.state }⟩)

end Recorded

/-- The counters after a run. -/
def Outcome.count {σ ρ : Type} (o : Outcome σ ρ) (m : Metrics) : Metrics :=
  if o.counted then m.record o.report else m

/-- The lines of a run for the user, each with the channel that it belongs to. -/
def Event.line? : Event → Option (Bool × String)
  | .told line => some (false, line)
  | .warned line => some (true, line)
  | _ => none

/-- The texts that the action was invoked with, each with the context that it saw. -/
def Event.call? : Event → Option (String × Context)
  | .invoked text seen => some (text, seen)
  | _ => none

end Foreach.Batch
