import Foreach.Batch.Event
import Foreach.Iteration
import Foreach.Provider.Basic
import Foreach.Template.Render

/-!
The loop of a batch run: pull an item, run the action for it, put the context back, and again.

`Loop.turn` is one turn. A failure of the action is kept in the report and the loop goes on; whatever
else fails, ordinary or not, ends it, and so does a failure of the observer or of the token. A failed
pull is wrapped, unless it is a hard stop.
-/

namespace Foreach.Batch

/-- Something that is asked between items whether the run is cancelled. It answers by the number of the
check, and may fail instead. -/
structure CancelToken where
  answer : Nat → Except Fault Bool

/-- Answers alone make a token that never fails. -/
instance : Coe (Option (Nat → Bool)) (Option CancelToken) :=
  ⟨Option.map fun isSet => ⟨fun check => .ok (isSet check)⟩⟩

/-- What a run does: the iterable and the template by name, the action, and when it is cancelled. -/
structure Job (ρ : Type) where
  iterable : String
  template : String
  runner : Runner ρ
  observer : Observer ρ
  /-- The token of the run; none is not asked. -/
  cancel : Option CancelToken
  /-- The reading of the clock during the run. -/
  now : Number

namespace Job

/-- Whether the check with this number cancels the run. -/
def cancels {ρ : Type} (job : Job ρ) (check : Nat) : Except Fault Bool :=
  match job.cancel with
  | none => .ok false
  | some token => token.answer check

end Job

/-- A run under way. -/
structure Progress (σ ρ : Type) where
  /-- The state of the sequence. -/
  source : σ
  /-- The state of the action. -/
  runner : ρ
  context : Context
  /-- How often it was asked whether the run is cancelled. -/
  checks : Nat
  report : Report
  trace : List Event

namespace Progress

variable {σ ρ : Type}

def add (p : Progress σ ρ) (events : List Event) : Progress σ ρ :=
  { p with trace := p.trace ++ events }

end Progress

/-- The end of a loop, with the failure that ended it, if one did. -/
structure Stop (σ ρ : Type) where
  progress : Progress σ ρ
  fault? : Option Fault

namespace Loop

variable {σ ρ : Type}

/-- A turn ends by going on or by stopping. -/
abbrev Turn (σ ρ : Type) := Progress σ ρ ⊕ Stop σ ρ

def stop (p : Progress σ ρ) : Turn σ ρ := .inr ⟨p, none⟩

def abort (p : Progress σ ρ) (f : Fault) : Turn σ ρ := .inr ⟨p, some f⟩

/-- Goes on from a turn that does not stop. -/
def andThen (t : Turn σ ρ) (next : Progress σ ρ → Turn σ ρ) : Turn σ ρ :=
  match t with
  | .inl p => next p
  | .inr s => .inr s

/-- Tells the observer of an event. -/
def log (job : Job ρ) (p : Progress σ ρ) (e : Entry) : Turn σ ρ :=
  let (result, runner) := job.observer.log e p.runner
  let p := { p with runner }.add [.logged e]
  match result with
  | .ok () => .inl p
  | .error f => abort p f

/-- Runs the action on a text. -/
def invoke (job : Job ρ) (p : Progress σ ρ) (text : String) : Turn σ ρ :=
  let index := p.report.processed
  andThen (log job p (.itemStarted index text)) fun p =>
    let p := p.add [.invoked text p.context]
    match job.runner.invoke text ⟨p.context, p.runner⟩ with
    | (.ok result, s) =>
      let report := { p.report with results := p.report.results ++ [result] }
      log job { p with context := s.context, runner := s.state, report } (.itemFinished index)
    | (.error f, s) =>
      let p := { p with context := s.context, runner := s.state }
      if f.isOrdinary then
        let report := { p.report with failures := p.report.failures ++ [(index, f)] }
        log job ({ p with report }.add [.warned (Fault.action index f).message])
          (.itemFailed index f.message)
      else abort p f

/-- Renders the template for an item and runs the action on the text. -/
def process (job : Job ρ) (p : Progress σ ρ) (item : Item) : Turn σ ρ :=
  let p := p.add [.told s!"Processing item {p.report.processed}..."]
  match item with
  | .bare _ => abort p (.noPart "object has no attribute 'variables'")
  | .entry _ vars =>
    match Template.interpolate job.template vars with
    | .error f => abort p f
    | .ok text => invoke job p text

/-- A failed pull, as the run reports it. -/
def pullFault (job : Job ρ) (p : Progress σ ρ) (f : Fault) : Fault :=
  if f.isOrdinary then .generation job.iterable p.report.processed f else f

/-- Goes on in the context of a checkpoint. -/
def restored (checkpoint : Checkpoint) : Turn σ ρ → Turn σ ρ
  | .inl p => .inl { p with context := .restore checkpoint }
  | .inr s => .inr s

/-- Pulls an item and processes it. -/
def advance (job : Job ρ) (checkpoint : Checkpoint) (source : Source σ) (p : Progress σ ρ) :
    Turn σ ρ :=
  let p := p.add [.pulled p.context]
  match source.pull ⟨p.context, p.source⟩ with
  | (.ok none, s) => stop { p with context := s.context, source := s.state }
  | (.error f, s) =>
    abort { p with context := s.context, source := s.state } (pullFault job p f)
  | (.ok (some item), s) =>
    let report := { p.report with processed := p.report.processed + 1 }
    restored checkpoint (process job { p with context := s.context, source := s.state, report } item)

/-- One turn. -/
def turn (job : Job ρ) (checkpoint : Checkpoint) (source : Source σ) (p : Progress σ ρ) :
    Turn σ ρ :=
  let check := p.checks
  let p := { p with checks := check + 1 }
  match job.cancels check with
  | .error f => abort p f
  | .ok true =>
    stop ({ p with report := { p.report with cancelled := true } }.add
      [.told s!"Cancelled after {p.report.processed} items"])
  | .ok false => advance job checkpoint source p

end Loop
end Foreach.Batch
