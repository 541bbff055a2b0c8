import Foreach.Proofs.Batch.Course

/-!
Whole runs, from the first event to the last.

A run is either refused its sequence, and then does nothing else, or goes the course of its loop. Both
kinds are told in full: result, report, trace and context.
-/

namespace Foreach.Batch

variable {σ ρ : Type} {job : Job ρ} {service : Service σ} {start : Start σ ρ}

namespace Job

/-- The event that begins a run. -/
def opener (job : Job ρ) : Entry := .started job.iterable job.template job.runner.name

/-- The state of the action when the sequence is asked for. -/
def firstState (job : Job ρ) (start : Start σ ρ) : ρ := job.heard job.opener start.runner

/-- A run that has been logged without a failure. -/
def begun (job : Job ρ) (start : Start σ ρ) : Progress σ ρ :=
  { job.blank start with runner := job.firstState start }.add [.logged job.opener]

/-- A run that was given its sequence in `s`. -/
def opened (job : Job ρ) (start : Start σ ρ) (s : Surroundings σ) : Progress σ ρ :=
  { job.begun start with context := s.context, source := s.state }

/-- What a run is given when it asks for its sequence, and what is left then. -/
def asked (job : Job ρ) (service : Service σ) (start : Start σ ρ) :
    Except Fault (Option (Source σ)) × Surroundings σ :=
  service.generate (.text job.iterable) ⟨start.context, start.source⟩

/-- What has happened in a run after these calls, the first pull having taken place in `opened`. -/
def history (job : Job ρ) (start : Start σ ρ) (opened : Context) (calls : List Call) : List Event :=
  .logged job.opener ::
    eventsOf start.context 0 opened (job.deeds 0 calls (job.firstState start))

/-- Why a run that was given this has no sequence, if it has none. -/
def refusal? : Except Fault (Option (Source σ)) → Option Fault
  | .error f => some f
  | .ok none => some (.mismatch "object is not an async iterable")
  | .ok (some _) => none

theorem refused_or_opened (job : Job ρ) (service : Service σ) (start : Start σ ρ) :
    (∃ f, refusal? (job.asked service start).1 = some f) ∨
      ∃ source s, job.asked service start = (.ok (some source), s) := by
  match hasked : job.asked service start with
  | (.error f, _) => exact .inl ⟨f, rfl⟩
  | (.ok none, _) => exact .inl ⟨_, rfl⟩
  | (.ok (some source), s) => exact .inr ⟨source, s, rfl⟩

/-- The report of a run that has no sequence. -/
def refusedReport (job : Job ρ) : Report :=
  { Report.start job.iterable job.template job.now with ended := job.now, aborted := true }

theorem begin_of_quiet (hquiet : job.observer.Quiet) (start : Start σ ρ) :
    job.begin start = .inl (job.begun start) :=
  Loop.log_of_quiet hquiet _ _

theorem opening_begun (service : Service σ) (start : Start σ ρ) :
    job.opening service (job.begun start) =
      ((job.asked service start).1, { job.begun start with
        context := (job.asked service start).2.context
        source := (job.asked service start).2.state }) := rfl

end Job

/-! ### After the loop -/

/-- What follows a loop leaves its failure and the surroundings of the sequence as they are. -/
theorem complete_eq (s : Stop σ ρ) :
    complete s = ⟨{ s.progress with
      report := { s.progress.report with
        aborted := s.progress.report.aborted || s.fault?.isSome }
      trace := s.progress.trace ++ if s.fault?.isNone then
        [.told s!"Processed {s.progress.report.processed} items"] else [] }, s.fault?⟩ := by
  obtain ⟨p, _ | f⟩ := s <;> simp [complete, Progress.add]

/-- Closing takes over the failure if it fails, marks the report then, and is one event if there is
anything to close. -/
theorem close_eq (source : Source σ) (s : Stop σ ρ) :
    (close source s).fault? =
        (source.closeFault? ⟨s.progress.context, s.progress.source⟩).or s.fault? ∧
      (close source s).progress.report = { s.progress.report with
        aborted := s.progress.report.aborted ||
          (source.closeFault? ⟨s.progress.context, s.progress.source⟩).isSome } ∧
      (close source s).progress.trace =
        s.progress.trace ++ if source.close?.isSome then [.closed] else [] := by
  unfold close Source.closeFault?
  cases source.close? with
  | none => simp
  | some act =>
    simp only [Progress.add]
    generalize act ⟨s.progress.context, s.progress.source⟩ = closed
    obtain ⟨_ | _, e⟩ := closed <;> simp

/-! ### The end of a run -/

/-- An observer that never fails has no say in the result. -/
theorem conclude_result (hquiet : job.observer.Quiet) (checkpoint : Checkpoint) (s : Stop σ ρ) :
    (conclude job checkpoint s).result =
      s.fault?.elim (.ok (conclude job checkpoint s).report) .error := by
  obtain ⟨hlog, hfinalize⟩ := hquiet
  unfold conclude settle
  dsimp only
  generalize hsummary : Report.summary _ = summary
  have hlogged := hlog (.finished summary) s.progress.runner
  generalize job.observer.log (.finished summary) s.progress.runner = told at hlogged
  obtain ⟨result, r⟩ := told
  cases hlogged
  dsimp only
  have hfinalized := hfinalize summary r
  generalize job.observer.finalize summary r = told at hfinalized
  obtain ⟨result, r⟩ := told
  cases hfinalized
  rfl

/-- The report of a run is that of its loop, but for the time of its end and for the mark of an aborted
run, which a failure to close sets too. -/
theorem conclude_close_report (checkpoint : Checkpoint) (source : Source σ) (s : Stop σ ρ) :
    (conclude job checkpoint (close source (complete s))).report = { s.progress.report with
      ended := job.now
      aborted := s.progress.report.aborted ||
        ((source.closeFault? ⟨s.progress.context, s.progress.source⟩).or s.fault?).isSome } := by
  obtain ⟨-, hreport, -⟩ := close_eq source (complete s)
  unfold conclude
  simp only [hreport]
  simp only [complete_eq, Option.isSome_or, Bool.or_assoc, Bool.or_comm]

theorem conclude_close_trace (checkpoint : Checkpoint) (source : Source σ) (s : Stop σ ρ) :
    (conclude job checkpoint (close source (complete s))).trace = s.progress.trace ++
      (if s.fault?.isNone then [.told s!"Processed {s.progress.report.processed} items"] else []) ++
      (if source.close?.isSome then [.closed] else []) ++
      [.logged (.finished
        (conclude job checkpoint (close source (complete s))).report.summary)] := by
  obtain ⟨-, -, htrace⟩ := close_eq source (complete s)
  unfold conclude
  rw [htrace, complete_eq]

theorem conclude_close_result (hquiet : job.observer.Quiet) (checkpoint : Checkpoint)
    (source : Source σ) (s : Stop σ ρ) :
    (conclude job checkpoint (close source (complete s))).result =
      ((source.closeFault? ⟨s.progress.context, s.progress.source⟩).or s.fault?).elim
        (.ok (conclude job checkpoint (close source (complete s))).report) .error := by
  obtain ⟨hfault, -, -⟩ := close_eq source (complete s)
  rw [conclude_result hquiet, hfault, complete_eq]

theorem conduct_of_opened {checkpoint : Checkpoint} {p q : Progress σ ρ} {source : Source σ}
    (hopen : job.opening service p = (.ok (some source), q))
    (ends : job.LoopEnds service checkpoint p) :
    conduct job service checkpoint p ends =
      close source (complete (Iteration.run (Loop.turn job checkpoint source) q
        (ends source q hopen))) := by
  unfold conduct
  split
  next h => cases hopen.symm.trans h
  next h => cases hopen.symm.trans h
  next h =>
    cases hopen.symm.trans h
    rfl

theorem conduct_of_refused {checkpoint : Checkpoint} {p : Progress σ ρ} {f : Fault}
    (hrefused : Job.refusal? (job.opening service p).1 = some f)
    (ends : job.LoopEnds service checkpoint p) :
    conduct job service checkpoint p ends = complete ⟨(job.opening service p).2, some f⟩ := by
  unfold conduct
  split
  next g q h =>
    rw [h] at hrefused ⊢
    cases hrefused
    rfl
  next q h =>
    rw [h] at hrefused ⊢
    cases hrefused
    rfl
  next source q h =>
    rw [h] at hrefused
    cases hrefused

theorem execute_of_begun {p : Progress σ ρ} (hbegin : job.begin start = .inl p)
    (ends : job.Ends service start) :
    execute job service start ends = conclude job start.context.snapshot
      (conduct job service start.context.snapshot p (ends p hbegin)) := by
  unfold execute
  split
  next h => cases hbegin.symm.trans h
  next h =>
    cases hbegin.symm.trans h
    rfl

/-! ### Runs without a sequence -/

/-- A run that is refused its sequence comes to an end at once. -/
theorem ends_of_refused {f : Fault} (hquiet : job.observer.Quiet)
    (hrefused : Job.refusal? (job.asked service start).1 = some f) : job.Ends service start := by
  intro p hbegin source q hopen
  cases (Job.begin_of_quiet hquiet start).symm.trans hbegin
  rw [Job.opening_begun, Prod.mk.injEq] at hopen
  rw [hopen.1] at hrefused
  cases hrefused

/-- A run that is refused its sequence fails with the refusal, and neither pulls nor invokes anything. -/
theorem execute_of_refused {f : Fault} (hquiet : job.observer.Quiet)
    (hrefused : Job.refusal? (job.asked service start).1 = some f) (ends : job.Ends service start) :
    (execute job service start ends).result = .error f ∧
      (execute job service start ends).report = job.refusedReport ∧
      (execute job service start ends).trace =
        [.logged job.opener, .logged (.finished job.refusedReport.summary)] := by
  have hopening : Job.refusal? (job.opening service (job.begun start)).1 = some f := hrefused
  rw [execute_of_begun (Job.begin_of_quiet hquiet start) ends, conduct_of_refused hopening,
    conclude_result hquiet]
  exact ⟨rfl, rfl, rfl⟩

/-! ### Runs with a sequence -/

theorem Job.opening_of_asked {source : Source σ} {s : Surroundings σ}
    (hasked : job.asked service start = (.ok (some source), s)) :
    job.opening service (job.begun start) = (.ok (some source), job.opened start s) := by
  rw [Job.opening_begun, hasked]
  rfl

/-- A run that stops after a number of turns comes to an end. -/
theorem Job.ends_of_after {source : Source σ} {s : Surroundings σ} {turns : Nat} {p : Progress σ ρ}
    {last : Stop σ ρ} (hbegin : job.begin start = .inl (job.begun start))
    (hasked : job.asked service start = (.ok (some source), s))
    (hafter : Iteration.after (Loop.turn job start.context.snapshot source) turns
      (job.opened start s) = .inl p)
    (hstop : Loop.turn job start.context.snapshot source p = .inr last) : job.Ends service start := by
  intro q hq other r hopen
  cases hbegin.symm.trans hq
  cases (Job.opening_of_asked hasked).symm.trans hopen
  exact Iteration.ends_of_after hafter (Iteration.ends_of_inr hstop)

/-- It is over as the turn that stops it says. -/
theorem conduct_of_after {source : Source σ} {s : Surroundings σ} {turns : Nat} {p : Progress σ ρ}
    {last : Stop σ ρ} (hasked : job.asked service start = (.ok (some source), s))
    (hafter : Iteration.after (Loop.turn job start.context.snapshot source) turns
      (job.opened start s) = .inl p)
    (hstop : Loop.turn job start.context.snapshot source p = .inr last)
    (ends : job.LoopEnds service start.context.snapshot (job.begun start)) :
    conduct job service start.context.snapshot (job.begun start) ends =
      close source (complete last) := by
  rw [conduct_of_opened (Job.opening_of_asked hasked), Iteration.run_of_after hafter hstop]

/-- The course of a whole run, its sequence having been opened in `s`. -/
abbrev RunCourse (job : Job ρ) (start : Start σ ρ) (source : Source σ) (s : Surroundings σ) :=
  Course job source start.context 0 s (job.firstState start)

namespace RunCourse

variable {source : Source σ} {s : Surroundings σ}

def deeds (c : RunCourse job start source s) : List Deed :=
  job.deeds 0 c.calls (job.firstState start)

/-- The failure of the run: that of the closing, else that of the last turn. -/
def fault? (c : RunCourse job start source s) : Option Fault :=
  (source.closeFault? c.left).or (c.finish.fault? job.iterable c.calls.length)

def report (c : RunCourse job start source s) : Report where
  iterable := job.iterable
  template := job.template
  started := job.now
  ended := job.now
  processed := c.calls.length + c.finish.met
  results := results c.deeds
  failures := failures 1 c.deeds
  cancelled := c.finish.isCancelled
  aborted := c.fault?.isSome

/-- What happens after the loop: a last line, if the loop did not fail, and the closing. -/
def farewell (c : RunCourse job start source s) : List Event :=
  (if (c.finish.fault? job.iterable c.calls.length).isNone then
    [.told s!"Processed {(c.calls.length : Int)} items"] else []) ++
  if source.close?.isSome then [.closed] else []

/-- What has happened when the loop is over. -/
def loopTrace (c : RunCourse job start source s) : List Event :=
  job.history start s.context c.calls ++ c.finish.events c.calls.length c.reached.context

def trace (c : RunCourse job start source s) : List Event :=
  c.loopTrace ++ c.farewell ++ [.logged (.finished c.report.summary)]

/-- Nothing fails in a run that gets to the end of its sequence and can close it. -/
theorem fault?_of_exhausted (c : RunCourse job start source s) (hfinish : c.finish = .exhausted)
    (hclose : source.closeFault? c.left = none) : c.fault? = none := by
  rw [fault?, hclose, hfinish]
  rfl

/-- Where the loop is when the stretch of the course is over. -/
def passed (c : RunCourse job start source s) : Progress σ ρ :=
  (job.opened start s).past job start.context c.calls c.reached

/-- Where the loop of the course stops, the action being in state `r`. -/
def stop (c : RunCourse job start source s) (r : ρ) : Stop σ ρ :=
  ⟨c.passed.ended c.finish c.left r, c.finish.fault? job.iterable c.calls.length⟩

/-- The loop of a run goes through the stretch of its course and stops there. -/
theorem turns_eq (c : RunCourse job start source s) (hquiet : job.observer.Quiet) :
    Iteration.after (Loop.turn job start.context.snapshot source) c.calls.length
        (job.opened start s) = .inl c.passed ∧
      ∃ r, Loop.turn job start.context.snapshot source c.passed = .inr (c.stop r) := by
  have hafter := Stretch.after_eq start.context.snapshot (p := job.opened start s) c.toStretch hquiet rfl
  have hstop := Course.turn_eq start.context.snapshot (p := job.opened start s) c hquiet rfl
  have hchecks : (job.opened start s).checks + c.calls.length = c.calls.length := Nat.zero_add _
  rw [hchecks] at hstop
  exact ⟨hafter, hstop⟩

/-- A run that has a course comes to an end. -/
theorem ends (c : RunCourse job start source s) (hquiet : job.observer.Quiet)
    (hasked : job.asked service start = (.ok (some source), s)) : job.Ends service start := by
  obtain ⟨hafter, r, hstop⟩ := c.turns_eq hquiet
  exact Job.ends_of_after (Job.begin_of_quiet hquiet start) hasked hafter hstop

/-- A run whose loop stops where that of a course does has the report and the trace of the course. -/
theorem conclude_eq (c : RunCourse job start source s) (r : ρ) :
    (conclude job start.context.snapshot (close source (complete (c.stop r)))).report = c.report ∧
      (conclude job start.context.snapshot (close source (complete (c.stop r)))).trace = c.trace := by
  have hreport : (conclude job start.context.snapshot
      (close source (complete (c.stop r)))).report = c.report := by
    rw [conclude_close_report]
    simp [report, fault?, deeds, stop, passed, Progress.ended, Progress.past, Report.after,
      Job.opened, Job.begun, Job.blank, Progress.add, Report.start]
  refine ⟨hreport, ?_⟩
  rw [conclude_close_trace, hreport]
  have hmet : c.finish.fault? job.iterable c.calls.length = none → c.finish.met = 0 := by
    cases c.finish <;> simp [Finish.fault?, Finish.met]
  simp only [trace, loopTrace, Job.history, farewell, stop, passed, Progress.ended, Progress.past,
    Report.after, Job.opened, Job.begun, Job.blank, Progress.add, Report.start, Job.deeds_length,
    Option.isNone_iff_eq_none]
  by_cases hnone : c.finish.fault? job.iterable c.calls.length = none
  · simp [hnone, hmet hnone]
  · simp [hnone]

/-- A run goes its course: the result, the report and the trace are those of the course. -/
theorem execute_eq (c : RunCourse job start source s) (hquiet : job.observer.Quiet)
    (hasked : job.asked service start = (.ok (some source), s)) (ends : job.Ends service start) :
    (execute job service start ends).result = c.fault?.elim (.ok c.report) .error ∧
      (execute job service start ends).report = c.report ∧
      (execute job service start ends).trace = c.trace := by
  obtain ⟨hafter, r, hstop⟩ := c.turns_eq hquiet
  obtain ⟨hreport, htrace⟩ := c.conclude_eq r
  rw [execute_of_begun (Job.begin_of_quiet hquiet start) ends, conduct_of_after hasked hafter hstop]
  refine ⟨?_, hreport, htrace⟩
  rw [conclude_close_result hquiet, hreport]
  rfl

end RunCourse

/-- A run that has a sequence and comes to an end has a course. -/
theorem exists_runCourse {source : Source σ} {s : Surroundings σ} (hquiet : job.observer.Quiet)
    (hasked : job.asked service start = (.ok (some source), s)) (ends : job.Ends service start) :
    Nonempty (RunCourse job start source s) := by
  have hends : Iteration.Ends (Loop.turn job start.context.snapshot source)
      { job.begun start with context := s.context, source := s.state } := by
    refine ends _ (Job.begin_of_quiet hquiet start) source _ ?_
    rw [Job.opening_begun, hasked]
  exact exists_course hquiet hends rfl

/-! ### Runs that need not end -/

/-- What has happened in a run after a number of turns, or after its loop, if that stops before. -/
def Job.traceAfter (job : Job ρ) (service : Service σ) (start : Start σ ρ) (turns : Nat) :
    List Event :=
  match job.begin start with
  | .inr s => s.progress.trace
  | .inl p =>
    match job.opening service p with
    | (.ok (some source), q) =>
      match Iteration.after (Loop.turn job start.context.snapshot source) turns q with
      | .inl q => q.trace
      | .inr s => s.progress.trace
    | (_, q) => q.trace

theorem traceAfter_of_refused {f : Fault} (hquiet : job.observer.Quiet)
    (hrefused : Job.refusal? (job.asked service start).1 = some f) (turns : Nat) :
    job.traceAfter service start turns = [.logged job.opener] := by
  unfold Job.traceAfter
  simp only [Job.begin_of_quiet hquiet, Job.opening_begun]
  generalize job.asked service start = asked at hrefused
  obtain ⟨_ | _ | source, s⟩ := asked
  · rfl
  · rfl
  · cases hrefused

theorem traceAfter_of_asked {source : Source σ} {s : Surroundings σ} (hquiet : job.observer.Quiet)
    (hasked : job.asked service start = (.ok (some source), s)) (turns : Nat) :
    job.traceAfter service start turns =
      match Iteration.after (Loop.turn job start.context.snapshot source) turns
        { job.begun start with context := s.context, source := s.state } with
      | .inl q => q.trace
      | .inr stop => stop.progress.trace := by
  unfold Job.traceAfter
  simp only [Job.begin_of_quiet hquiet, Job.opening_begun, hasked]

/-- The events of a stretch that a run begins with. -/
theorem Stretch.traceAfter_eq {source : Source σ} {s : Surroundings σ}
    (stretch : Stretch job source start.context 0 s (job.firstState start))
    (hquiet : job.observer.Quiet) (hasked : job.asked service start = (.ok (some source), s)) :
    job.traceAfter service start stretch.calls.length =
      job.history start s.context stretch.calls := by
  rw [traceAfter_of_asked hquiet hasked, Stretch.after_eq start.context.snapshot
    (p := { job.begun start with context := s.context, source := s.state }) stretch hquiet rfl]
  rfl

/-- The events of a loop that is over after so many turns. -/
theorem RunCourse.traceAfter_eq {source : Source σ} {s : Surroundings σ}
    (c : RunCourse job start source s) (hquiet : job.observer.Quiet)
    (hasked : job.asked service start = (.ok (some source), s)) {turns : Nat}
    (hturns : c.calls.length < turns) :
    job.traceAfter service start turns = c.loopTrace := by
  have hstretch := Stretch.after_eq start.context.snapshot
    (p := { job.begun start with context := s.context, source := s.state }) c.toStretch hquiet rfl
  obtain ⟨r, hstop⟩ := Course.turn_eq start.context.snapshot
    (p := { job.begun start with context := s.context, source := s.state }) c hquiet rfl
  obtain ⟨more, rfl⟩ := Nat.exists_eq_add_of_lt hturns
  rw [traceAfter_of_asked hquiet hasked, Nat.add_assoc, Iteration.after_add hstretch,
    Iteration.after_of_inr hstop]
  simp [loopTrace, Job.history, Progress.ended, Progress.past, Job.begun, Job.blank, Progress.add]

end Foreach.Batch
