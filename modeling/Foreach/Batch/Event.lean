import Foreach.Batch.Report

/-!
What happens in a run, in the order in which it happens.
-/

namespace Foreach.Batch

/-- An event for the ledger of a run. -/
inductive Entry where
  | started (iterable template runner : String)
  | itemStarted (index : Int) (text : String)
  | itemFinished (index : Int)
  | itemFailed (index : Int) (error : String)
  | finished (summary : Summary)

namespace Entry

def name : Entry → String
  | .started _ _ _ => "batch.start"
  | .itemStarted _ _ => "item.start"
  | .itemFinished _ => "item.finish"
  | .itemFailed _ _ => "item.error"
  | .finished _ => "batch.finish"

/-- The data that go with an event. -/
def data : Entry → Value
  | .started iterable template runner =>
    .record [("iterable", .text iterable), ("template", .text template), ("runner", .text runner)]
  | .itemStarted index text => .record [("index", .int index), ("text", .text text)]
  | .itemFinished index =>
    .record [("index", .int index), ("duration_ms", .float (.ofInt 0))]
  | .itemFailed index error => .record [("index", .int index), ("error", .text error)]
  | .finished summary => .map summary.toMapping

end Entry

/-- Something that is told of the events of a run while they happen, and of the summary at its end. It
works on the state of the action, and may fail. -/
structure Observer (ρ : Type) where
  log : Entry → ρ → Except Fault Unit × ρ
  finalize : Summary → ρ → Except Fault Unit × ρ

namespace Observer

variable {ρ : Type}

/-- The observer that keeps nothing. -/
def idle : Observer ρ := ⟨fun _ s => (.ok (), s), fun _ s => (.ok (), s)⟩

/-- An observer that never fails. -/
def Quiet (o : Observer ρ) : Prop :=
  (∀ e s, (o.log e s).1 = .ok ()) ∧ ∀ summary s, (o.finalize summary s).1 = .ok ()

theorem idle_quiet : (idle : Observer ρ).Quiet := ⟨fun _ _ => rfl, fun _ _ => rfl⟩

end Observer

/-- Anything that happens in a run. -/
inductive Event where
  /-- A line of progress for the user. -/
  | told (line : String)
  /-- A failure line for the user. -/
  | warned (line : String)
  /-- The observer was told of an event, whatever came of it. -/
  | logged (entry : Entry)
  /-- The sequence was pulled, in this context. -/
  | pulled (seen : Context)
  /-- The action was invoked with a text, in this context. -/
  | invoked (text : String) (seen : Context)
  /-- The sequence was closed. -/
  | closed

end Foreach.Batch
