import Foreach.Proofs.Batch.Replay
import Foreach.Proofs.Batch.View
import Foreach.Script.Provider
import Foreach.Script.Runner

/-!
How runs come out.

Failures come from six places. One before the loop leaves nothing to close and nothing done. One in the
loop ends it, and one in the closing, which every sequence that can be closed comes to, takes the place of
whatever there was.
-/

namespace Foreach.Batch

variable {σ τ ρ : Type}

/-- The run failed before it had a sequence: it neither pulled, invoked nor closed anything. -/
structure Outcome.Refused (o : Outcome σ ρ) (f : Fault) : Prop where
  result : o.result = .error f
  pulls : o.pulls = []
  calls : o.calls = []
  closings : o.closings = 0

/-- The other run returned, and did the same for the items of this one. -/
structure Outcome.SameItems (o : Outcome σ ρ) (other : Outcome τ ρ) : Prop where
  returned : other.result = .ok other.report
  processed : o.report.processed = other.report.processed
  calls : o.calls = other.calls
  results : o.report.results = other.report.results
  failures : o.report.failures = other.report.failures
  lines : o.lines ++ [(false, s!"Processed {other.report.processed} items")] = other.lines

section

variable {job : Job ρ} {service : Service σ} {start : Start σ ρ} {source : Source σ}
  {s : Surroundings σ}

/-- What comes of a run that goes this course. -/
structure RunCourse.Settles (c : RunCourse job start source s) (o : Outcome σ ρ) : Prop where
  processed : o.report.processed = c.visits.length + c.finish.met
  calls : o.calls = c.calls ++ c.finish.calls
  results : o.report.results = results c.deeds
  /-- The ordinary failures of the action, which do not end the loop, are all in the report. -/
  failures : o.report.failures = failures 1 c.deeds
  isolated : ∀ d ∈ c.deeds, d.IsIsolated
  closings : o.closings = if source.close?.isSome then 1 else 0
  closeFailed : ∀ f, source.closeFault? c.left = some f → o.result = .error f
  pullFailed : source.closeFault? c.left = none → ∀ f, c.finish = .failedPull f →
    f.isOrdinary = true → o.result = .error (.generation job.iterable c.visits.length f)
  pullStopped : source.closeFault? c.left = none → ∀ f, c.finish = .failedPull f →
    f.isOrdinary = false → o.result = .error f
  /-- A failure of the action ends the loop only if it is a hard stop. -/
  actionStopped : ∀ text seen f, c.finish = .stopped text seen f → f.isOrdinary = false ∧
    (source.closeFault? c.left = none → o.result = .error f)
  unrendered : source.closeFault? c.left = none → ∀ f, c.finish = .unrendered f →
    o.result = .error f
  unanswered : source.closeFault? c.left = none → ∀ f, c.finish = .unanswered f →
    o.result = .error f
  returned : source.closeFault? c.left = none → c.finish = .exhausted ∨ c.finish = .cancelled →
    o.result = .ok o.report
  /-- Up to a failed pull, the run is the run over the items before it alone. -/
  alone : ∀ f, c.finish = .failedPull f → ∀ {τ : Type} (other : Service τ) (state : τ),
    other.Offers job.iterable start.context state c.visits →
      ∃ ends, o.SameItems (execute job other ⟨start.context, state, start.runner⟩ ends)

/-- The course of the run over the items that a run went through before a pull failed. -/
theorem RunCourse.exists_alone (c : RunCourse job start source s) {f : Fault}
    (hfinish : c.finish = .failedPull f) {other : Service τ} {state : τ}
    (hoffers : other.Offers job.iterable start.context state c.visits) :
    ∃ source' s', job.asked other ⟨start.context, state, start.runner⟩ = (.ok (some source'), s') ∧
      ∃ d : RunCourse job ⟨start.context, state, start.runner⟩ source' s', d.calls = c.calls ∧
        d.finish = .exhausted ∧ source'.closeFault? d.left = none := by
  have hgoesOn : ∀ check ≤ c.calls.length, job.cancels check = .ok false := by
    intro check hcheck
    rcases Nat.lt_or_eq_of_le hcheck with hlt | rfl
    · simpa using c.goesOn check hlt
    · have hlast := c.finishes
      rw [hfinish, Nat.zero_add] at hlast
      exact hlast.cancels_of_failedPull
  obtain ⟨source', s', hasked, d, -, hcalls, hexhausted, hclose⟩ :=
    exists_runCourse_of_offers ⟨start.context, state, start.runner⟩ hoffers c.renders hgoesOn
      c.isolated
  exact ⟨source', s', hasked, d, hcalls, hexhausted, hclose⟩

/-- A run whose pull failed did for its items what the run over them alone does. -/
theorem RunCourse.sameItems_alone (c : RunCourse job start source s) (hquiet : job.observer.Quiet)
    (hasked : job.asked service start = (.ok (some source), s)) (ends : job.Ends service start)
    {f : Fault} (hfinish : c.finish = .failedPull f) {other : Service τ} {state : τ}
    (hoffers : other.Offers job.iterable start.context state c.visits) :
    ∃ ends', (execute job service start ends).SameItems
      (execute job other ⟨start.context, state, start.runner⟩ ends') := by
  obtain ⟨source', s', hasked', d, hcalls, hexhausted, hclose⟩ := c.exists_alone hfinish hoffers
  have ends' := d.ends hquiet hasked'
  obtain ⟨-, hreport, htrace⟩ := c.execute_eq hquiet hasked ends
  obtain ⟨hresult', hreport', htrace'⟩ := d.execute_eq hquiet hasked' ends'
  have hfault := d.fault?_of_exhausted hexhausted hclose
  have hdeeds : d.deeds = c.deeds := by
    simp only [RunCourse.deeds, hcalls]
    rfl
  exact ⟨ends', {
    returned := by
      rw [hresult', hfault, hreport']
      rfl
    processed := by
      simp only [hreport, hreport', RunCourse.report, hcalls, hfinish, hexhausted, Finish.met]
    calls := by
      simp only [Outcome.calls, htrace, htrace', RunCourse.trace_calls, hcalls, hfinish, hexhausted,
        Finish.calls]
    results := by simp only [hreport, hreport', RunCourse.report, hdeeds]
    failures := by simp only [hreport, hreport', RunCourse.report, hdeeds]
    lines := by
      simp [Outcome.lines, htrace, htrace', hreport', RunCourse.report, RunCourse.trace_lines, hcalls,
        hdeeds, hfinish, hexhausted, Finish.lines, Finish.fault?, Finish.met]
      rfl }⟩

theorem RunCourse.settles (c : RunCourse job start source s) (hquiet : job.observer.Quiet)
    (hasked : job.asked service start = (.ok (some source), s)) (ends : job.Ends service start) :
    c.Settles (execute job service start ends) := by
  obtain ⟨hresult, hreport, htrace⟩ := c.execute_eq hquiet hasked ends
  have hlast : source.closeFault? c.left = none → (execute job service start ends).result =
      (c.finish.fault? job.iterable c.visits.length).elim
        (.ok (execute job service start ends).report) .error := by
    intro hclose
    rw [hresult, hreport, RunCourse.fault?, hclose, Option.none_or, c.length_visits]
  exact {
    processed := by simp only [hreport, RunCourse.report, c.length_visits]
    calls := by simp only [Outcome.calls, htrace, c.trace_calls]
    results := by simp only [hreport, RunCourse.report]
    failures := by simp only [hreport, RunCourse.report]
    isolated := c.isolated
    closings := by simp only [Outcome.closings, htrace, c.trace_closings]
    closeFailed := by
      intro f hclose
      rw [hresult, RunCourse.fault?, hclose]
      rfl
    pullFailed := by
      intro hclose f hfinish hordinary
      simp only [hlast hclose, hfinish, Finish.fault?, hordinary, if_true, Option.elim_some]
    pullStopped := by
      intro hclose f hfinish hhard
      simp only [hlast hclose, hfinish, Finish.fault?, hhard, Bool.false_eq_true, if_false,
        Option.elim_some]
    actionStopped := by
      intro text seen f hfinish
      refine ⟨(hfinish ▸ c.finishes).isOrdinary_eq_false, fun hclose => ?_⟩
      simp only [hlast hclose, hfinish, Finish.fault?, Option.elim_some]
    unrendered := by
      intro hclose f hfinish
      simp only [hlast hclose, hfinish, Finish.fault?, Option.elim_some]
    unanswered := by
      intro hclose f hfinish
      simp only [hlast hclose, hfinish, Finish.fault?, Option.elim_some]
    returned := by
      intro hclose hfinish
      rcases hfinish with hfinish | hfinish <;>
        simp only [hlast hclose, hfinish, Finish.fault?, Option.elim_none]
    alone := fun f hfinish _ _ _ hoffers => c.sameItems_alone hquiet hasked ends hfinish hoffers }

/-- A run that is refused its sequence ends with the refusal, having done nothing. -/
theorem exists_refused {f : Fault} (hquiet : job.observer.Quiet)
    (hrefused : Job.refusal? (job.asked service start).1 = some f) :
    ∃ ends, (execute job service start ends).Refused f := by
  have ends := ends_of_refused hquiet hrefused
  obtain ⟨hresult, -, htrace⟩ := execute_of_refused hquiet hrefused ends
  exact ⟨ends, {
    result := hresult
    pulls := by simp [Outcome.pulls, htrace, Event.pull?]
    calls := by simp [Outcome.calls, htrace, Event.call?]
    closings := by simp [Outcome.closings, htrace, Event.isClosing] }⟩

end

/-- How a run comes out, for every provider, action and token. Without a definition or a provider it is
refused, and so it is if the provider opens nothing. Otherwise a run that comes to an end goes a course,
and each course that a run may go settles what comes of it. -/
theorem execute_settles (job : Job ρ) (service : Service σ) (start : Start σ ρ)
    (hquiet : job.observer.Quiet) :
    (service.store.get? (.text job.iterable) = none →
      ∃ ends, (execute job service start ends).Refused (.undefined job.iterable)) ∧
    (∀ d, service.store.get? (.text job.iterable) = some d → service.registry.get? d.type = none →
      ∃ ends, (execute job service start ends).Refused (.dangling job.iterable d.type)) ∧
    ∀ d provider, service.store.get? (.text job.iterable) = some d →
      service.registry.get? d.type = some provider →
      (∀ f s, provider.generate d.spec ⟨start.context, start.source⟩ = (.error f, s) →
        ∃ ends, (execute job service start ends).Refused f) ∧
      (∀ s, provider.generate d.spec ⟨start.context, start.source⟩ = (.ok none, s) →
        ∃ ends, (execute job service start ends).Refused
          (.mismatch "object is not an async iterable")) ∧
      ∀ source s, provider.generate d.spec ⟨start.context, start.source⟩ = (.ok (some source), s) →
        (job.Ends service start → Nonempty (RunCourse job start source s)) ∧
        ∀ c : RunCourse job start source s, ∃ ends, c.Settles (execute job service start ends) := by
  refine ⟨fun hstore => ?_, fun d hstore hregistry => ?_, fun d provider hstore hregistry => ?_⟩
  · refine exists_refused hquiet ?_
    rw [Job.asked, Service.generate_of_undefined hstore]
    rfl
  · refine exists_refused hquiet ?_
    rw [Job.asked, Service.generate_of_dangling hstore hregistry]
    rfl
  · have hasked : job.asked service start =
        provider.generate d.spec ⟨start.context, start.source⟩ := by
      rw [Job.asked, Service.generate_of_provider hstore hregistry]
    refine ⟨fun f s hgenerate => ?_, fun s hgenerate => ?_, fun source s hgenerate => ⟨?_, ?_⟩⟩
    · refine exists_refused hquiet ?_
      rw [hasked, hgenerate]
      rfl
    · refine exists_refused hquiet ?_
      rw [hasked, hgenerate]
      rfl
    · exact exists_runCourse hquiet (hasked.trans hgenerate)
    · intro c
      have ends := c.ends hquiet (hasked.trans hgenerate)
      exact ⟨ends, c.settles hquiet (hasked.trans hgenerate) ends⟩

/-- A script that gives one item and then fails. -/
def broken : Script.Provided where
  id := "broken"
  type := "broken"
  mode := .closable
  steps := [.yield .null (.map []), .raise (.system "no more")]
  closing := []

/-- A job over it. -/
def brokenJob : Job Unit where
  iterable := "broken"
  template := "go"
  runner := .noop Unit
  observer := .idle
  cancel := none
  now := .int 0

theorem execute_settles_broken :
    let service := Service.only "broken" (Script.provider broken 0)
    let start : Start Script.Stage Unit := ⟨.empty, .ofScripts 1, ()⟩
    ∃ ends : brokenJob.Ends service start, (execute brokenJob service start ends).result =
      .error (.generation "broken" 1 (.system "no more")) := by
  intro service start
  obtain ⟨-, -, hfound⟩ := execute_settles brokenJob service start Observer.idle_quiet
  obtain ⟨-, -, hopened⟩ := hfound _ _ rfl rfl
  obtain ⟨-, hcourse⟩ := hopened _ _ rfl
  obtain ⟨ends, hsettles⟩ := hcourse
    (.cons rfl rfl rfl (fun _ hf => nomatch hf) (.last (.failedPull rfl rfl)))
  exact ⟨ends, hsettles.pullFailed rfl _ rfl rfl⟩

end Foreach.Batch
