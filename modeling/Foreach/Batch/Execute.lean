import Foreach.Batch.Loop
import Foreach.Batch.Metrics
import Foreach.Request
import Foreach.Service

/-!
Batch runs from beginning to end.

A run takes a checkpoint, opens the sequence of its iterable and goes through the loop. However it
ends, the sequence is closed, and after that the context is put back; only then is the report final. A
failure to close takes the place of whatever the run was about to give, and so does a failure of the
observer after that. A run that the observer cannot even be told of is no run.
-/

namespace Foreach.Batch

variable {σ ρ : Type}

/-- What a run leaves behind. -/
structure Outcome (σ ρ : Type) where
  result : Except Fault Report
  /-- The final report, of a failed run too. -/
  report : Report
  context : Context
  source : σ
  runner : ρ
  trace : List Event
  /-- Whether the run counts as one. -/
  counted : Bool

/-- Where a run begins. -/
structure Start (σ ρ : Type) where
  context : Context
  source : σ
  runner : ρ

namespace Job

/-- A run that has done nothing yet. -/
def blank (job : Job ρ) (start : Start σ ρ) : Progress σ ρ where
  source := start.source
  runner := start.runner
  context := start.context
  checks := 0
  report := .start job.iterable job.template job.now
  trace := []

/-- A run that has been logged. -/
def begin (job : Job ρ) (start : Start σ ρ) : Loop.Turn σ ρ :=
  Loop.log job (job.blank start) (.started job.iterable job.template job.runner.name)

/-- A run after its sequence has been asked for, and what it was given. -/
def opening (job : Job ρ) (service : Service σ) (p : Progress σ ρ) :
    Except Fault (Option (Source σ)) × Progress σ ρ :=
  let (opened, s) := service.generate (.text job.iterable) ⟨p.context, p.source⟩
  (opened, { p with context := s.context, source := s.state })

/-- The loop of a run from here on comes to an end, if it begins at all. -/
def LoopEnds (job : Job ρ) (service : Service σ) (checkpoint : Checkpoint) (p : Progress σ ρ) : Prop :=
  ∀ source q, job.opening service p = (.ok (some source), q) →
    Iteration.Ends (Loop.turn job checkpoint source) q

/-- A run comes to an end. -/
def Ends (job : Job ρ) (service : Service σ) (start : Start σ ρ) : Prop :=
  ∀ p, job.begin start = .inl p → job.LoopEnds service start.context.snapshot p

end Job

/-- A run whose loop is over; a completed one says so. -/
def complete (s : Stop σ ρ) : Stop σ ρ :=
  match s.fault? with
  | none => { s with progress := s.progress.add [.told s!"Processed {s.progress.report.processed} items"] }
  | some _ => { s with progress := { s.progress with report := { s.progress.report with aborted := true } } }

/-- Closes the sequence of a run. -/
def close (source : Source σ) (s : Stop σ ρ) : Stop σ ρ :=
  match source.close? with
  | none => s
  | some act =>
    let p := s.progress.add [.closed]
    match act ⟨p.context, p.source⟩ with
    | (.ok (), e) => { s with progress := { p with context := e.context, source := e.state } }
    | (.error f, e) =>
      ⟨{ p with context := e.context, source := e.state, report := { p.report with aborted := true } },
        some f⟩

/-- The loop of a run and what follows it, up to the closing of the sequence. -/
def conduct (job : Job ρ) (service : Service σ) (checkpoint : Checkpoint) (p : Progress σ ρ)
    (ends : job.LoopEnds service checkpoint p) : Stop σ ρ :=
  match h : job.opening service p with
  | (.error f, q) => complete ⟨q, some f⟩
  | (.ok none, q) => complete ⟨q, some (.mismatch "object is not an async iterable")⟩
  | (.ok (some source), q) =>
    close source (complete (Iteration.run (Loop.turn job checkpoint source) q (ends source q h)))

/-- Tells the observer of the end of a run and of its summary, and gives the failure in that, if there
is one. -/
def settle (job : Job ρ) (summary : Summary) (runner : ρ) : Option Fault × ρ :=
  match job.observer.log (.finished summary) runner with
  | (.error f, runner) => (some f, runner)
  | (.ok (), runner) =>
    match job.observer.finalize summary runner with
    | (.error f, runner) => (some f, runner)
    | (.ok (), runner) => (none, runner)

/-- The end of a run: the context is put back, and the report is closed and logged. -/
def conclude (job : Job ρ) (checkpoint : Checkpoint) (s : Stop σ ρ) : Outcome σ ρ :=
  let report := { s.progress.report with ended := job.now }
  let (failure, runner) := settle job report.summary s.progress.runner
  { result := (failure <|> s.fault?).elim (.ok report) .error
    report
    context := .restore checkpoint
    source := s.progress.source
    runner
    trace := s.progress.trace ++ [.logged (.finished report.summary)]
    counted := true }

/-- A run that has ended before it began. -/
def Stop.unbegun (s : Stop σ ρ) : Outcome σ ρ where
  result := s.fault?.elim (.ok s.progress.report) .error
  report := s.progress.report
  context := s.progress.context
  source := s.progress.source
  runner := s.progress.runner
  trace := s.progress.trace
  counted := false

/-- Runs the action once for each item of an iterable. -/
def execute (job : Job ρ) (service : Service σ) (start : Start σ ρ)
    (ends : job.Ends service start) : Outcome σ ρ :=
  match h : job.begin start with
  | .inr s => s.unbegun
  | .inl p =>
    let checkpoint := start.context.snapshot
    conclude job checkpoint (conduct job service checkpoint p (ends p h))

/-- The run that an input asks for comes to an end, if it asks for one. -/
def Ends (job : Request → Job ρ) (service : Service σ) (start : Start σ ρ) (input : String) : Prop :=
  ∀ r, Request.parse input = .ok r → (job r).Ends service start

/-- Runs what an input asks for. An input that makes no request is no run. -/
def run (job : Request → Job ρ) (service : Service σ) (start : Start σ ρ) (input : String)
    (ends : Ends job service start input) : Except Fault (Outcome σ ρ) :=
  match h : Request.parse input with
  | .error f => .error f
  | .ok r => .ok (execute (job r) service start (ends r h))

section

variable {job : Request → Job ρ} {service : Service σ} {start : Start σ ρ} {input : String}
  (ends : Ends job service start input)

theorem run_of_request {r : Request} (h : Request.parse input = .ok r) :
    run job service start input ends = .ok (execute (job r) service start (ends r h)) := by
  unfold run
  split
  next hparse => cases hparse.symm.trans h
  next hparse =>
    cases hparse.symm.trans h
    rfl

theorem run_of_no_request {f : Fault} (h : Request.parse input = .error f) :
    run job service start input ends = .error f := by
  unfold run
  split
  next hparse =>
    cases hparse.symm.trans h
    rfl
  next hparse => cases hparse.symm.trans h

end

end Foreach.Batch
