import Foreach.Proofs.Batch.Deed

/-!
One turn of the loop.

With an observer that never fails, a turn either does a deed that is no hard stop, and goes on with the
context put back, or it is the last one. `Finishes` has a case for each way of being the last.
-/

namespace Foreach.Batch

variable {σ ρ : Type}

/-- What the last turn of a loop was. -/
inductive Finish where
  /-- The sequence was at its end. -/
  | exhausted
  | cancelled
  /-- The token failed. -/
  | unanswered (f : Fault)
  | failedPull (f : Fault)
  /-- The item has no text. -/
  | unrendered (f : Fault)
  /-- The action was stopped hard. -/
  | stopped (text : String) (seen : Context) (f : Fault)

namespace Finish

/-- The failure of a loop over the sequence of this name that ends so after `done` items. -/
def fault? (name : String) (done : Nat) : Finish → Option Fault
  | .exhausted | .cancelled => none
  | .failedPull f => some (if f.isOrdinary then .generation name done f else f)
  | .unanswered f | .unrendered f | .stopped _ _ f => some f

/-- How many items the last turn met. -/
def met : Finish → Nat
  | .unrendered _ | .stopped _ _ _ => 1
  | _ => 0

def isCancelled : Finish → Bool
  | .cancelled => true
  | _ => false

/-- What happens in the last turn, after `done` items and in the context `before`. -/
def events (done : Nat) (before : Context) : Finish → List Event
  | .exhausted | .failedPull _ => [.pulled before]
  | .cancelled => [.told s!"Cancelled after {(done : Int)} items"]
  | .unanswered _ => []
  | .unrendered _ => [.pulled before, .told s!"Processing item {((done + 1 : Nat) : Int)}..."]
  | .stopped text seen _ =>
    [.pulled before, .told s!"Processing item {((done + 1 : Nat) : Int)}...",
      .logged (.itemStarted (done + 1 : Nat) text), .invoked text seen]

end Finish

/-- After `done` items, the turn that begins in `s` with the action in state `r` is the last one, and
leaves these surroundings. -/
inductive Finishes (job : Job ρ) (source : Source σ) (done : Nat) (s : Surroundings σ) (r : ρ) :
    Finish → Surroundings σ → Prop
  | cancelled (hcancel : job.cancels done = .ok true) : Finishes job source done s r .cancelled s
  | unanswered {f : Fault} (hcancel : job.cancels done = .error f) :
      Finishes job source done s r (.unanswered f) s
  | exhausted {t : Surroundings σ} (hcancel : job.cancels done = .ok false)
      (hpull : source.pull s = (.ok none, t)) : Finishes job source done s r .exhausted t
  | failedPull {f : Fault} {t : Surroundings σ} (hcancel : job.cancels done = .ok false)
      (hpull : source.pull s = (.error f, t)) : Finishes job source done s r (.failedPull f) t
  | unrendered {item : Item} {f : Fault} {t : Surroundings σ}
      (hcancel : job.cancels done = .ok false) (hpull : source.pull s = (.ok (some item), t))
      (hrender : item.render job.template = .error f) :
      Finishes job source done s r (.unrendered f) t
  | stopped {item : Item} {text : String} {f : Fault} {t : Surroundings σ} {u : Surroundings ρ}
      (hcancel : job.cancels done = .ok false) (hpull : source.pull s = (.ok (some item), t))
      (hrender : item.render job.template = .ok text)
      (hperform : job.perform (done + 1 : Nat) (text, t.context) r = (.error f, u))
      (hhard : f.isOrdinary = false) :
      Finishes job source done s r (.stopped text t.context f) ⟨u.context, t.state⟩

namespace Finishes

variable {job : Job ρ} {source : Source σ} {done : Nat} {s t : Surroundings σ} {r : ρ} {f : Fault}

/-- Only a hard stop of the action ends a loop. -/
theorem isOrdinary_eq_false {text : String} {seen : Context}
    (h : Finishes job source done s r (.stopped text seen f) t) : f.isOrdinary = false := by
  cases h with
  | stopped _ _ _ _ hhard => exact hhard

/-- A pull fails only in a turn that is not cancelled. -/
theorem cancels_of_failedPull (h : Finishes job source done s r (.failedPull f) t) :
    job.cancels done = .ok false := by
  cases h with
  | failedPull hcancel _ => exact hcancel

end Finishes

/-- A run after more calls, its sequence having got to `t`. -/
def Progress.past (p : Progress σ ρ) (job : Job ρ) (base : Context) (calls : List Call)
    (t : Surroundings σ) : Progress σ ρ where
  source := t.state
  runner := job.stateAfterAll p.checks calls p.runner
  context := t.context
  checks := p.checks + calls.length
  report := p.report.after p.checks (job.deeds p.checks calls p.runner)
  trace := p.trace ++ eventsOf base p.checks p.context (job.deeds p.checks calls p.runner)

/-- A run whose last turn was this one; the state of the action is `r`. -/
def Progress.ended (p : Progress σ ρ) (finish : Finish) (t : Surroundings σ) (r : ρ) :
    Progress σ ρ where
  source := t.state
  runner := r
  context := t.context
  checks := p.checks + 1
  report := { p.report with
    processed := p.report.processed + finish.met
    cancelled := p.report.cancelled || finish.isCancelled }
  trace := p.trace ++ finish.events p.checks p.context

theorem Progress.past_nil (p : Progress σ ρ) (job : Job ρ) (base : Context) :
    p.past job base [] ⟨p.context, p.source⟩ = p := by
  simp [past, Job.deeds, Job.stateAfterAll, eventsOf]

theorem Progress.past_cons (p : Progress σ ρ) (job : Job ρ) (base : Context) (call : Call)
    (calls : List Call) (state : σ) (t : Surroundings σ) :
    (p.past job base [call] ⟨base, state⟩).past job base calls t = p.past job base (call :: calls) t := by
  have hreport := p.report.after_append p.checks [job.deed p.checks call p.runner]
    (job.deeds (p.checks + 1) calls (job.stateAfter p.checks call p.runner))
  simp only [List.length_singleton, List.singleton_append] at hreport
  simp only [past, Job.deeds, Job.stateAfterAll, eventsOf, List.length_cons, List.length_nil,
    List.append_nil, List.append_assoc, Nat.zero_add, hreport, Nat.add_assoc, Nat.add_comm 1]

namespace Loop

variable {job : Job ρ} {checkpoint : Checkpoint} {source : Source σ} {p : Progress σ ρ}

theorem log_of_ok {e : Entry} (hlog : (job.observer.log e p.runner).1 = .ok ()) :
    log job p e = .inl ({ p with runner := job.heard e p.runner }.add [.logged e]) := by
  unfold log Job.heard
  generalize job.observer.log e p.runner = told at hlog
  obtain ⟨result, r⟩ := told
  cases hlog
  rfl

theorem log_of_quiet (hquiet : job.observer.Quiet) (p : Progress σ ρ) (e : Entry) :
    log job p e = .inl ({ p with runner := job.heard e p.runner }.add [.logged e]) :=
  log_of_ok (hquiet.1 e p.runner)

theorem process_of_render {item : Item} {text : String}
    (hrender : item.render job.template = .ok text) :
    process job p item = invoke job (p.add [.told s!"Processing item {p.report.processed}..."]) text := by
  cases item with
  | bare value => cases hrender
  | entry value vars =>
    have hinterpolate : Template.interpolate job.template vars = .ok text := hrender
    simp only [process, hinterpolate]

theorem process_of_unrendered {item : Item} {f : Fault}
    (hrender : item.render job.template = .error f) :
    process job p item = abort (p.add [.told s!"Processing item {p.report.processed}..."]) f := by
  cases item with
  | bare value =>
    cases hrender
    rfl
  | entry value vars =>
    have hinterpolate : Template.interpolate job.template vars = .error f := hrender
    simp only [process, hinterpolate]

/-- An action that succeeds, or fails in an ordinary way, is a deed, and the turn goes on. -/
theorem invoke_of_isolated {text : String} (done : Nat)
    (hprocessed : p.report.processed = (done + 1 : Nat))
    (hhears : job.Hears done (text, p.context) p.runner)
    (hisolated : (job.deed done (text, p.context) p.runner).IsIsolated) :
    invoke job p text = .inl { p with
      context := (job.perform (done + 1 : Nat) (text, p.context) p.runner).2.context
      runner := job.stateAfter done (text, p.context) p.runner
      report := { p.report with
        results := p.report.results ++ results [job.deed done (text, p.context) p.runner]
        failures := p.report.failures ++
          failures (done + 1) [job.deed done (text, p.context) p.runner] }
      trace := p.trace ++ ([.logged (.itemStarted (done + 1 : Nat) text), .invoked text p.context] ++
        Deed.warning (done + 1 : Nat) (job.deed done (text, p.context) p.runner).answer ++
        [.logged (Deed.closing (done + 1 : Nat) (job.deed done (text, p.context) p.runner).answer)]) } := by
  have hperform : job.runner.invoke text
      ⟨p.context, job.heard (.itemStarted (done + 1 : Nat) text) p.runner⟩ =
    job.perform (done + 1 : Nat) (text, p.context) p.runner := rfl
  obtain ⟨hstarted, hclosed⟩ := hhears
  have hlogged : log job p (.itemStarted (done + 1 : Nat) text) = _ := log_of_ok hstarted
  simp only [invoke, hprocessed, hlogged, andThen, Progress.add, hperform, Job.stateAfter]
  unfold Job.deed at hisolated ⊢
  generalize job.perform (done + 1 : Nat) (text, p.context) p.runner = performed at hisolated hclosed ⊢
  obtain ⟨answer, u⟩ := performed
  cases answer with
  | ok result =>
    dsimp only at hclosed ⊢
    rw [log_of_ok hclosed]
    simp [results, failures, Deed.result?, Deed.fault?, Deed.warning, Deed.closing, Except.toOption,
      Progress.add]
  | error f =>
    have hordinary : f.isOrdinary = true := hisolated f rfl
    dsimp only at hclosed ⊢
    rw [if_pos hordinary, log_of_ok hclosed]
    simp [results, failures, Deed.result?, Deed.fault?, Deed.warning, Deed.closing,
      Except.toOption, Progress.add]

/-- A hard stop of the action ends the run where it is. -/
theorem invoke_of_hardStop (hquiet : job.observer.Quiet) {text : String} (done : Nat) {f : Fault}
    {u : Surroundings ρ} (hprocessed : p.report.processed = (done + 1 : Nat))
    (hperform : job.perform (done + 1 : Nat) (text, p.context) p.runner = (.error f, u))
    (hhard : f.isOrdinary = false) :
    invoke job p text = abort { p with
      context := u.context
      runner := u.state
      trace := p.trace ++ [.logged (.itemStarted (done + 1 : Nat) text), .invoked text p.context] } f := by
  unfold Job.perform at hperform
  simp only [invoke, log_of_quiet hquiet, hprocessed, andThen, Progress.add, hperform, hhard,
    Bool.false_eq_true, if_false, List.append_assoc, List.singleton_append]

/-- A turn with a deed goes on in the context of the checkpoint, whatever the pull and the action have
done to the context. -/
theorem turn_of_deed (checkpoint : Checkpoint) (hcount : p.report.processed = p.checks)
    (hcancel : job.cancels p.checks = .ok false) {item : Item} {after : Surroundings σ} {text : String}
    (hpull : source.pull ⟨p.context, p.source⟩ = (.ok (some item), after))
    (hrender : item.render job.template = .ok text)
    (hhears : job.Hears p.checks (text, after.context) p.runner)
    (hisolated : (job.deed p.checks (text, after.context) p.runner).IsIsolated) :
    turn job checkpoint source p = .inl (p.past job (.restore checkpoint) [(text, after.context)]
      ⟨.restore checkpoint, after.state⟩) := by
  simp only [turn, hcancel, advance, Progress.add, hpull, process_of_render hrender]
  rw [invoke_of_isolated p.checks (by simp [hcount]) hhears hisolated]
  simp [restored, Progress.past, Job.stateAfterAll, Job.deeds, eventsOf, Deed.events, Report.after,
    hcount, Job.deed]

/-- A turn that the token cancels ends the run before the pull. -/
theorem turn_of_cancelled (hcount : p.report.processed = p.checks)
    (hcancel : job.cancels p.checks = .ok true) : turn job checkpoint source p =
      .inr ⟨p.ended .cancelled ⟨p.context, p.source⟩ p.runner, none⟩ := by
  simp [turn, hcancel, stop, Progress.add, Progress.ended, Finish.met, Finish.isCancelled,
    Finish.events, hcount]

/-- So does a turn that finds the sequence at its end, after the pull. -/
theorem turn_of_exhausted (hcancel : job.cancels p.checks = .ok false) {t : Surroundings σ}
    (hpull : source.pull ⟨p.context, p.source⟩ = (.ok none, t)) :
    turn job checkpoint source p = .inr ⟨p.ended .exhausted t p.runner, none⟩ := by
  simp [turn, hcancel, advance, hpull, stop, Progress.add, Progress.ended, Finish.met,
    Finish.isCancelled, Finish.events]

/-- The last turn ends the run as its kind says; only the state of the action is left open. -/
theorem turn_of_finishes (hquiet : job.observer.Quiet) (hcount : p.report.processed = p.checks)
    {finish : Finish} {t : Surroundings σ}
    (h : Finishes job source p.checks ⟨p.context, p.source⟩ p.runner finish t) :
    ∃ r, turn job checkpoint source p =
      .inr ⟨p.ended finish t r, finish.fault? job.iterable p.checks⟩ := by
  cases h with
  | cancelled hcancel => exact ⟨_, turn_of_cancelled hcount hcancel⟩
  | unanswered hcancel =>
    refine ⟨p.runner, ?_⟩
    simp [turn, hcancel, abort, Progress.ended, Finish.fault?, Finish.met, Finish.isCancelled,
      Finish.events]
  | exhausted hcancel hpull => exact ⟨_, turn_of_exhausted hcancel hpull⟩
  | failedPull hcancel hpull =>
    refine ⟨p.runner, ?_⟩
    simp [turn, hcancel, advance, hpull, pullFault, abort, Progress.add, Progress.ended,
      Finish.fault?, Finish.met, Finish.isCancelled, Finish.events, ← hcount]
  | unrendered hcancel hpull hrender =>
    refine ⟨p.runner, ?_⟩
    simp [turn, hcancel, advance, hpull, process_of_unrendered hrender, restored, abort, Progress.add,
      Progress.ended, Finish.fault?, Finish.met, Finish.isCancelled, Finish.events, hcount]
  | @stopped item text f t u hcancel hpull hrender hperform hhard =>
    refine ⟨u.state, ?_⟩
    simp only [turn, hcancel, advance, Progress.add, hpull, process_of_render hrender]
    rw [invoke_of_hardStop hquiet p.checks (by simp [hcount]) hperform hhard]
    simp [restored, abort, Progress.ended, Finish.fault?, Finish.met, Finish.isCancelled,
      Finish.events, hcount]

end Loop

/-- Every turn does a deed or is the last one. -/
theorem deed_or_finishes (job : Job ρ) (source : Source σ) (done : Nat) (s : Surroundings σ) (r : ρ) :
    (∃ item after text, job.cancels done = .ok false ∧ source.pull s = (.ok (some item), after) ∧
      item.render job.template = .ok text ∧ (job.deed done (text, after.context) r).IsIsolated) ∨
    ∃ finish t, Finishes job source done s r finish t := by
  match hcancel : job.cancels done with
  | .error f => exact .inr ⟨_, _, .unanswered hcancel⟩
  | .ok true => exact .inr ⟨_, _, .cancelled hcancel⟩
  | .ok false =>
    match hpull : source.pull s with
    | (.ok none, after) => exact .inr ⟨_, _, .exhausted hcancel hpull⟩
    | (.error f, after) => exact .inr ⟨_, _, .failedPull hcancel hpull⟩
    | (.ok (some item), after) =>
      match hrender : item.render job.template with
      | .error f => exact .inr ⟨_, _, .unrendered hcancel hpull hrender⟩
      | .ok text =>
        match hperform : job.perform (done + 1 : Nat) (text, after.context) r with
        | (.ok result, u) =>
          refine .inl ⟨item, after, text, rfl, rfl, hrender, fun f hf => ?_⟩
          simp only [Job.deed, hperform] at hf
          cases hf
        | (.error f, u) =>
          cases hordinary : f.isOrdinary with
          | false => exact .inr ⟨_, _, .stopped hcancel hpull hrender hperform hordinary⟩
          | true =>
            refine .inl ⟨item, after, text, rfl, rfl, hrender, fun g hg => ?_⟩
            simp only [Job.deed, hperform, Except.error.injEq] at hg
            exact hg ▸ hordinary

end Foreach.Batch
