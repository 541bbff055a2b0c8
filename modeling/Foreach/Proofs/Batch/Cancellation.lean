import Foreach.Proofs.Batch.Completion
import Foreach.Proofs.Batch.Reach
import Foreach.Proofs.Batch.Watch

/-!
A cancelled run is a run that was cut off.

The token is asked before each pull. A run that it cancels has pulled and invoked just for the items before,
and its report and its lines are those of the run over these items alone, but for what tells of the
cancellation. A token that never says so might as well not be there.
-/

namespace Foreach.Batch

variable {σ τ ρ : Type}

/-- The job without its token. -/
def Job.uncancelled (job : Job ρ) : Job ρ := { job with cancel := none }

/-- The lines for the items of deeds. -/
def linesOf (ds : List Deed) : List (Bool × String) :=
  (ds.zipIdx 1).flatMap fun (d, index) => d.lines index

/-- The other run went through these items and to the end, and this one did the same for them and was
cancelled then; `failed` tells whether it could not close its sequence. -/
structure Outcome.CutsOff (o : Outcome σ ρ) (other : Outcome τ ρ) (failed : Bool) (items : Nat) :
    Prop where
  notCancelled : other.report.cancelled = false
  notAborted : other.report.aborted = false
  report : o.report = { other.report with cancelled := true, aborted := failed }
  lines : ∃ front, other.lines = front ++ [(false, s!"Processed {items} items")] ∧ o.lines = front ++
    [(false, s!"Cancelled after {items} items"), (false, s!"Processed {items} items")]

/-- The run pulled these items and no others, and invoked the action for just them, in order; its sequence
was closed in `left` then. -/
structure Outcome.Cancelled (o : Outcome σ ρ) (job : Job ρ) (start : Start σ ρ) (source : Source σ)
    (visits : List Visit) (left : Surroundings σ) : Prop where
  pulls : o.pulls.length = visits.length
  calls : Rendered job.template visits o.calls
  processed : o.report.processed = visits.length
  closings : o.closings = if source.close?.isSome then 1 else 0
  /-- What a run without the token over these items alone does, from the same context and the same state
  of the action. -/
  alone : ∀ {τ : Type} (other : Service τ) (state : τ),
    other.Offers job.iterable start.context state visits → ∃ ends,
      o.CutsOff (execute job.uncancelled other ⟨start.context, state, start.runner⟩ ends)
        (source.closeFault? left).isSome visits.length ∧
      (job.uncancelled.Undisturbed other ⟨start.context, state, start.runner⟩ →
        (execute job.uncancelled other ⟨start.context, state, start.runner⟩ ends).result =
          .ok (execute job.uncancelled other ⟨start.context, state, start.runner⟩ ends).report)

namespace Job

/-- The token has no part in the deeds. -/
theorem uncancelled_deeds (job : Job ρ) (done : Nat) (calls : List Call) (r : ρ) :
    job.uncancelled.deeds done calls r = job.deeds done calls r := by
  induction calls generalizing done r with
  | nil => rfl
  | cons call calls ih => exact congrArg (_ :: ·) (ih _ _)

theorem uncancelled_hearsAll {job : Job ρ} {done : Nat} {calls : List Call} {r : ρ}
    (h : job.HearsAll done calls r) : job.uncancelled.HearsAll done calls r := by
  induction calls generalizing done r with
  | nil => trivial
  | cons call calls ih => exact ⟨h.1, ih h.2⟩

end Job

section

variable {job : Job ρ} {service : Service σ} {start : Start σ ρ} {source : Source σ}
  {s : Surroundings σ}

/-- A run that stops where a course does comes out as the course says. -/
theorem RunCourse.exists_execute_eq (c : RunCourse job start source s)
    (hlog : (job.observer.log job.opener start.runner).1 = .ok ())
    (hasked : job.asked service start = (.ok (some source), s))
    (hhears : job.HearsAll 0 c.calls (job.firstState start)) {r : ρ}
    (hstop : Loop.turn job start.context.snapshot source c.passed = .inr (c.stop r)) :
    ∃ ends : job.Ends service start, (execute job service start ends).report = c.report ∧
      (execute job service start ends).trace = c.trace ∧
      (job.Undisturbed service start →
        (execute job service start ends).result = c.fault?.elim (.ok c.report) .error) := by
  have hbegin : job.begin start = .inl (job.begun start) := Loop.log_of_ok hlog
  have hafter : Iteration.after (Loop.turn job start.context.snapshot source) c.calls.length
      (job.opened start s) = .inl c.passed :=
    Loop.after_of_gives c.gives c.renders rfl rfl c.goesOn hhears c.isolated
  have ends := Job.ends_of_after hbegin hasked hafter hstop
  have hconduct := conduct_of_after hasked hafter hstop (ends _ hbegin)
  obtain ⟨hreport, htrace⟩ := c.conclude_eq r
  have hexecute : execute job service start ends =
      conclude job start.context.snapshot (close source (complete (c.stop r))) := by
    rw [execute_of_begun hbegin, hconduct]
  refine ⟨ends, by rw [hexecute, hreport], by rw [hexecute, htrace], fun hcalm => ?_⟩
  obtain ⟨hfault, -, -⟩ := close_eq source (complete (c.stop r))
  rw [hcalm.result_eq hbegin, hconduct, hfault, complete_eq, hexecute, hreport]
  rfl

/-- The last turn of a course that comes to the end of its sequence, whatever the observer does. -/
theorem RunCourse.turn_of_exhausted (c : RunCourse job start source s) (hfinish : c.finish = .exhausted) :
    Loop.turn job start.context.snapshot source c.passed = .inr (c.stop c.passed.runner) := by
  have hlast := c.finishes
  rw [hfinish] at hlast
  cases hlast with
  | exhausted hcancel hpull =>
    rw [RunCourse.stop, hfinish]
    exact Loop.turn_of_exhausted hcancel hpull

/-- The last turn of a course that is cancelled, whatever the observer does. -/
theorem RunCourse.turn_of_cancelled (c : RunCourse job start source s) (hfinish : c.finish = .cancelled) :
    Loop.turn job start.context.snapshot source c.passed = .inr (c.stop c.passed.runner) := by
  have hlast := c.finishes
  rw [hfinish] at hlast
  generalize hleft : c.left = left at hlast
  cases hlast with
  | cancelled hcancel =>
    have hcount : c.passed.report.processed = c.passed.checks := by
      simp [RunCourse.passed, Progress.past, Report.after]
      rfl
    rw [RunCourse.stop, hfinish, hleft]
    exact Loop.turn_of_cancelled hcount hcancel

/-- A run that gets to a check where the token says so has a course that is cancelled there. -/
theorem Job.Reaches.exists_cancelled {k : Nat} (h : job.Reaches service start k)
    (hcancel : job.cancels k = .ok true) :
    (job.observer.log job.opener start.runner).1 = .ok () ∧
    ∃ source s, job.asked service start = (.ok (some source), s) ∧
      ∃ c : RunCourse job start source s, c.finish = .cancelled ∧ c.left = c.reached ∧
        c.calls.length = k ∧ job.HearsAll 0 c.calls (job.firstState start) ∧
        ∃ ends : job.Ends service start, (execute job service start ends).report = c.report ∧
          (execute job service start ends).trace = c.trace ∧
          (job.Undisturbed service start →
            (execute job service start ends).result = c.fault?.elim (.ok c.report) .error) := by
  obtain ⟨hlog, source, s, hasked, stretch, rfl, hhears, -⟩ := h.exists_stretch
  rw [← Nat.zero_add stretch.calls.length] at hcancel
  let c : RunCourse job start source s :=
    { stretch with finish := .cancelled, left := stretch.reached, finishes := .cancelled hcancel }
  have hstop := c.turn_of_cancelled rfl
  exact ⟨hlog, source, s, hasked, c, rfl, rfl, rfl, hhears,
    c.exists_execute_eq hlog hasked hhears hstop⟩

/-- A run that was cancelled and a run over the items before did the same, but for the cancellation. -/
theorem RunCourse.cutsOff {job' : Job ρ} {start' : Start τ ρ} {source' : Source τ} {s' : Surroundings τ}
    (c : RunCourse job start source s) (d : RunCourse job' start' source' s')
    (hcancelled : c.finish = .cancelled) (hexhausted : d.finish = .exhausted)
    (hclose : source'.closeFault? d.left = none) (hcalls : d.calls = c.calls)
    (hdeeds : d.deeds = c.deeds) (hiterable : job'.iterable = job.iterable)
    (htemplate : job'.template = job.template) (hnow : job'.now = job.now) {o : Outcome σ ρ}
    (hreport : o.report = c.report) (htrace : o.trace = c.trace) {o' : Outcome τ ρ}
    (hreport' : o'.report = d.report) (htrace' : o'.trace = d.trace) :
    o.CutsOff o' (source.closeFault? c.left).isSome c.visits.length where
  notCancelled := by simp only [hreport', RunCourse.report, hexhausted, Finish.isCancelled]
  notAborted := by
    simp only [hreport', RunCourse.report, d.fault?_of_exhausted hexhausted hclose, Option.isSome_none]
  report := by
    simp only [hreport, hreport', RunCourse.report, RunCourse.fault?, hcancelled, hexhausted, hcalls,
      hdeeds, hiterable, htemplate, hnow, Finish.fault?, Finish.met, Finish.isCancelled, Option.or_none]
  lines := by
    refine ⟨linesOf c.deeds, ?_, ?_⟩
    · simp [linesOf, Outcome.lines, htrace', d.trace_lines, hdeeds, hcalls, hexhausted, Finish.lines,
        Finish.fault?, c.length_visits]
    · simp [linesOf, Outcome.lines, htrace, c.trace_lines, hcancelled, Finish.lines, Finish.fault?,
        c.length_visits]

/-- A run over the items before a cancellation goes through all of them, since the cancelled run has. -/
theorem RunCourse.exists_alone_of_cancelled (c : RunCourse job start source s)
    (hcancelled : c.finish = .cancelled) (hlog : (job.observer.log job.opener start.runner).1 = .ok ())
    (hhears : job.HearsAll 0 c.calls (job.firstState start)) {o : Outcome σ ρ}
    (hreport : o.report = c.report) (htrace : o.trace = c.trace) {other : Service τ} {state : τ}
    (hoffers : other.Offers job.iterable start.context state c.visits) : ∃ ends,
      o.CutsOff (execute job.uncancelled other ⟨start.context, state, start.runner⟩ ends)
        (source.closeFault? c.left).isSome c.visits.length ∧
      (job.uncancelled.Undisturbed other ⟨start.context, state, start.runner⟩ →
        (execute job.uncancelled other ⟨start.context, state, start.runner⟩ ends).result =
          .ok (execute job.uncancelled other ⟨start.context, state, start.runner⟩ ends).report) := by
  have hisolated : ∀ d ∈ job.uncancelled.deeds 0 c.calls (job.firstState start), d.IsIsolated := by
    rw [job.uncancelled_deeds]
    exact c.isolated
  have hoffers' : other.Offers job.uncancelled.iterable start.context state c.visits := hoffers
  obtain ⟨source', s', hasked, d, -, hcalls, hexhausted, hclose⟩ :=
    exists_runCourse_of_offers ⟨start.context, state, start.runner⟩ hoffers' c.renders
      (fun _ _ => rfl) hisolated
  have hhears' := Job.uncancelled_hearsAll hhears
  rw [← hcalls] at hhears'
  obtain ⟨ends, hreport', htrace', hresult'⟩ :=
    d.exists_execute_eq hlog hasked hhears' (d.turn_of_exhausted hexhausted)
  have hdeeds : d.deeds = c.deeds := by
    rw [RunCourse.deeds, hcalls, job.uncancelled_deeds]
    rfl
  refine ⟨ends, c.cutsOff d hcancelled hexhausted hclose hcalls hdeeds rfl rfl rfl hreport htrace
    hreport' htrace', fun hcalm => ?_⟩
  rw [hresult' hcalm, d.fault?_of_exhausted hexhausted hclose, hreport']
  rfl

end

/-! ### Tokens that never say so -/

section

variable {job : Job ρ} {service : Service σ} {start : Start σ ρ}
  (hnever : ∀ check, job.cancels check = .ok false)

include hnever

theorem Loop.turn_uncancelled (checkpoint : Checkpoint) (source : Source σ) :
    turn job checkpoint source = turn job.uncancelled checkpoint source := by
  funext p
  simp only [turn, hnever p.checks]
  rfl

theorem loopEnds_uncancelled_iff {checkpoint : Checkpoint} {p : Progress σ ρ} :
    job.LoopEnds service checkpoint p ↔ job.uncancelled.LoopEnds service checkpoint p := by
  simp only [Job.LoopEnds, Loop.turn_uncancelled hnever]
  rfl

theorem ends_uncancelled_iff : job.Ends service start ↔ job.uncancelled.Ends service start := by
  simp only [Job.Ends, loopEnds_uncancelled_iff hnever]
  rfl

theorem conduct_uncancelled {checkpoint : Checkpoint} {p : Progress σ ρ}
    (ends : job.LoopEnds service checkpoint p) : conduct job service checkpoint p ends =
      conduct job.uncancelled service checkpoint p ((loopEnds_uncancelled_iff hnever).1 ends) := by
  unfold conduct
  simp only [Loop.turn_uncancelled hnever]
  rfl

theorem execute_uncancelled (ends : job.Ends service start)
    (ends' : job.uncancelled.Ends service start) :
    execute job service start ends = execute job.uncancelled service start ends' := by
  unfold execute
  simp only [conduct_uncancelled hnever]
  rfl

theorem traceAfter_uncancelled (turns : Nat) :
    job.traceAfter service start turns = job.uncancelled.traceAfter service start turns := by
  simp only [Job.traceAfter, Loop.turn_uncancelled hnever]
  rfl

end

/-- A token that says so at the check before the pull of item `k + 1` makes the run one over the first `k`
items, whatever the observer does. A token that never says so changes nothing. -/
theorem execute_cancelled (job : Job ρ) (service : Service σ) (start : Start σ ρ) :
    (∀ k, job.cancels k = .ok true → job.Reaches service start k →
      ∃ ends source s visits left, job.asked service start = (.ok (some source), s) ∧
        source.Gives start.context s visits left ∧ visits.length = k ∧
        (execute job service start ends).Cancelled job start source visits left ∧
        (job.Undisturbed service start → source.closeFault? left = none →
          (execute job service start ends).result = .ok (execute job service start ends).report)) ∧
    ((∀ check, job.cancels check = .ok false) →
      (job.Ends service start ↔ job.uncancelled.Ends service start) ∧
      (∀ ends ends', execute job service start ends = execute job.uncancelled service start ends') ∧
      ∀ turns, job.traceAfter service start turns = job.uncancelled.traceAfter service start turns) := by
  constructor
  · intro k hcancel hreaches
    obtain ⟨hlog, source, s, hasked, c, hfinish, hleft, rfl, hhears, ends, hreport, htrace, hresult⟩ :=
      hreaches.exists_cancelled hcancel
    refine ⟨ends, source, s, c.visits, c.left, hasked, hleft ▸ c.gives, c.length_visits, ?_, ?_⟩
    · exact {
        pulls := by
          simp [Outcome.pulls, htrace, c.trace_pulls, Finish.pulls, hfinish, c.length_visits]
        calls := by
          simpa [Outcome.calls, htrace, c.trace_calls, Finish.calls, hfinish] using c.renders
        processed := by
          simp [hreport, RunCourse.report, Finish.met, hfinish, c.length_visits]
        closings := by simp only [Outcome.closings, htrace, c.trace_closings]
        alone := fun _ _ hoffers =>
          c.exists_alone_of_cancelled hfinish hlog hhears hreport htrace hoffers }
    · intro hcalm hclose
      rw [hresult hcalm, hreport, RunCourse.fault?, hclose, hfinish]
      rfl
  · intro hnever
    exact ⟨ends_uncancelled_iff hnever, execute_uncancelled hnever, traceAfter_uncancelled hnever⟩

/-- The job with a token that says so at its second check. -/
def pausedJob : Job Unit :=
  { countingJob with cancel := some ⟨fun check => .ok (check == 1)⟩ }

theorem execute_cancelled_paused :
    let service := Service.only "numbers" Visit.replayer
    let start : Start (List Visit) Unit := ⟨.empty, numbers, ()⟩
    pausedJob.cancels 1 = .ok true ∧ pausedJob.Reaches service start 1 ∧
      ∃ ends, (execute pausedJob service start ends).Cancelled pausedJob start Visit.replay
          (numbers.take 1) ⟨.empty, numbers.drop 1⟩ ∧
        (execute pausedJob service start ends).result =
          .ok (execute pausedJob service start ends).report := by
  intro service start
  have hreaches : pausedJob.Reaches service start 1 := ⟨_, _, _, _, rfl, rfl, rfl⟩
  obtain ⟨hcancelled, -⟩ := execute_cancelled pausedJob service start
  obtain ⟨ends, source, s, visits, left, hasked, hgives, hlength, ho, hresult⟩ :=
    hcancelled 1 rfl hreaches
  have hreplay : pausedJob.asked service start = (.ok (some Visit.replay), ⟨.empty, numbers⟩) := rfl
  cases hreplay.symm.trans hasked
  have hvisits : visits = numbers.take 1 ∧ left = ⟨.empty, numbers.drop 1⟩ := by
    cases hgives with
    | nil => cases hlength
    | cons hpull hrest =>
      cases hpull
      cases hrest with
      | nil => exact ⟨rfl, rfl⟩
      | cons => cases hlength
  obtain ⟨rfl, rfl⟩ := hvisits
  have hcalm : pausedJob.Undisturbed service start :=
    Job.undisturbed_of_quiet Observer.idle_quiet (Job.ends_of_finite
      (Service.only_finite "numbers" Visit.replayer_finite) _ _)
  exact ⟨rfl, hreaches, ends, ho, hresult hcalm rfl⟩

end Foreach.Batch
