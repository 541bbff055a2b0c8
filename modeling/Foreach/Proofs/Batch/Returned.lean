import Foreach.Proofs.Batch.Recording
import Foreach.Proofs.Batch.Replay

/-!
When a run returns, and with which failures.

A run that is neither cancelled nor disturbed by its observer returns just if it goes through: its name
resolves to a sequence, which gives items, ends and closes without a failure, each of the items has a text,
and no action is stopped hard. The failures in its report are those of the deeds then, so there are none
just if every action gave a result.
-/

namespace Foreach.Batch

variable {σ ρ : Type} {job : Job ρ} {service : Service σ} {start : Start σ ρ}

theorem failures_eq_nil_iff (first : Nat) (deeds : List Deed) :
    failures first deeds = [] ↔ ∀ d ∈ deeds, ∃ result, d.answer = .ok result := by
  induction deeds generalizing first with
  | nil => simp
  | cons d ds ih =>
    rw [failures_cons, List.append_eq_nil_iff, ih, List.forall_mem_cons]
    obtain ⟨text, seen, f | result⟩ := d <;> simp [Deed.fault?]

theorem failures_ne_nil_iff (first : Nat) (deeds : List Deed) :
    failures first deeds ≠ [] ↔ ∃ d ∈ deeds, ∃ f, d.answer = .error f := by
  rw [Ne, failures_eq_nil_iff, not_forall]
  constructor
  · rintro ⟨d, hd⟩
    rw [Classical.not_imp] at hd
    obtain ⟨hmem, hnone⟩ := hd
    cases hanswer : d.answer with
    | error f => exact ⟨d, hmem, f, hanswer⟩
    | ok result => exact absurd ⟨result, hanswer⟩ hnone
  · rintro ⟨d, hmem, f, hf⟩
    refine ⟨d, fun hall => ?_⟩
    obtain ⟨result, hresult⟩ := hall hmem
    cases hf.symm.trans hresult

theorem isIsolated_of_ok {deeds : List Deed} (h : ∀ d ∈ deeds, ∃ result, d.answer = .ok result) :
    ∀ d ∈ deeds, d.IsIsolated := by
  intro d hd f hf
  obtain ⟨result, hresult⟩ := h d hd
  cases hf.symm.trans hresult

/-! ### The watch has no part in what is done -/

namespace Job

theorem watched_heard (job : Job ρ) (e : Entry) (r : ρ × Bool) :
    (job.watched.heard e r).1 = job.heard e r.1 := rfl

theorem watched_firstState (job : Job ρ) (start : Start σ ρ) :
    (job.watched.firstState start.watched).1 = job.firstState start := rfl

theorem watched_perform (job : Job ρ) (index : Int) (call : Call) (r : ρ × Bool) :
    (job.watched.perform index call r).1 = (job.perform index call r.1).1 ∧
      (job.watched.perform index call r).2.state.1 = (job.perform index call r.1).2.state := by
  rcases hinvoke : job.perform index call r.1 with ⟨answer, s⟩
  have hwatched : job.watched.perform index call r =
      (answer, ⟨s.context, s.state, (job.watched.heard (.itemStarted index call.1) r).2⟩) :=
    watched_invoke hinvoke
  exact ⟨congrArg Prod.fst hwatched, congrArg (·.2.state.1) hwatched⟩

theorem watched_stateAfter (job : Job ρ) (done : Nat) (call : Call) (r : ρ × Bool) :
    (job.watched.stateAfter done call r).1 = job.stateAfter done call r.1 := by
  obtain ⟨hanswer, hstate⟩ := job.watched_perform (done + 1 : Nat) call r
  simp only [stateAfter, watched_heard, hanswer, hstate]

theorem watched_deeds (job : Job ρ) (done : Nat) (calls : List Call) (r : ρ × Bool) :
    job.watched.deeds done calls r = job.deeds done calls r.1 := by
  induction calls generalizing done r with
  | nil => rfl
  | cons call calls ih =>
    have hdeed : job.watched.deed done call r = job.deed done call r.1 := by
      simp only [deed, (job.watched_perform _ call r).1]
    rw [deeds, deeds, hdeed, ih, watched_stateAfter]

end Job

/-! ### Runs that go through -/

/-- The name of the run resolves to a sequence, which gives items, ends and closes without a failure; each
of the items has a text, and these are the deeds for them. -/
def Job.GoesThrough (job : Job ρ) (service : Service σ) (start : Start σ ρ) (deeds : List Deed) : Prop :=
  ∃ visits calls, service.Offers job.iterable start.context start.source visits ∧
    Rendered job.template visits calls ∧ deeds = job.deeds 0 calls (job.firstState start)

theorem resolves_of_offers {name : String} {context : Context} {state : σ} {visits : List Visit}
    (h : service.Offers name context state visits) : ∃ found, service.resolve (.text name) = .ok found := by
  obtain ⟨source, s, -, -, hgenerate, -⟩ := h
  unfold Service.generate at hgenerate
  cases hresolve : service.resolve (.text name) with
  | ok found => exact ⟨found, rfl⟩
  | error f =>
    rw [hresolve] at hgenerate
    cases hgenerate

/-- A course without a failure that nothing cancels is that of a run which goes through. -/
theorem RunCourse.goesThrough {source : Source σ} {s : Surroundings σ}
    (c : RunCourse job.watched start.watched source s)
    (hasked : job.asked service start = (.ok (some source), s))
    (hnever : ∀ check, job.cancels check = .ok false) (hnone : c.fault? = none) :
    job.GoesThrough service start c.deeds ∧ ∀ d ∈ c.deeds, d.IsIsolated := by
  obtain ⟨hclose, hfinish⟩ := Option.or_eq_none_iff.1 hnone
  have hlast := c.finishes
  refine ⟨⟨c.visits, c.calls, ?_, c.renders, ?_⟩, c.isolated⟩
  -- Of all last turns only the end of the sequence is neither a failure nor a cancellation.
  · generalize c.finish = finish at hfinish hlast
    generalize c.left = left at hclose hlast
    cases hlast with
    | exhausted _ hpull => exact ⟨source, s, c.reached, left, hasked, c.gives, hpull, hclose⟩
    | cancelled hcancel => cases (hnever _).symm.trans hcancel
    | unanswered | failedPull | unrendered | stopped => cases hfinish
  · rw [RunCourse.deeds, job.watched_deeds, job.watched_firstState]

section

variable (h : job.Undisturbed service start) (hnever : ∀ check, job.cancels check = .ok false)

include hnever

theorem Job.Undisturbed.returned_of_goesThrough {deeds : List Deed} (hgoes : job.GoesThrough service start deeds)
    (hisolated : ∀ d ∈ deeds, d.IsIsolated) : ∃ report,
      (execute job service start h.ends).result = .ok report ∧ report.failures = failures 1 deeds := by
  obtain ⟨visits, calls, hoffers, hrenders, rfl⟩ := hgoes
  -- The watched run does the same deeds, so the offer gives it a course to its end.
  have hoffers' : service.Offers job.watched.iterable start.watched.context start.watched.source visits :=
    hoffers
  have hisolated' : ∀ d ∈ job.watched.deeds 0 calls (job.watched.firstState start.watched), d.IsIsolated := by
    rwa [job.watched_deeds, job.watched_firstState]
  obtain ⟨source, s, hasked, c, -, rfl, hfinish, hclose⟩ :=
    exists_runCourse_of_offers start.watched hoffers' hrenders (fun check _ => hnever check) hisolated'
  obtain ⟨ends, hexecute⟩ := h.execute_eq
  obtain ⟨hresult, -, -⟩ := c.execute_eq job.observer.watched_quiet hasked ends
  refine ⟨c.report, ?_, ?_⟩
  · rw [hexecute]
    refine hresult.trans ?_
    rw [c.fault?_of_exhausted hfinish hclose]
    rfl
  · rw [RunCourse.report, RunCourse.deeds, job.watched_deeds, job.watched_firstState]

/-- A run that nothing cancels or disturbs returns just if it goes through and no action is stopped hard,
and its failures are those of its deeds. -/
theorem Job.Undisturbed.returned_iff {fs : List (Int × Fault)} :
    (∃ report, (execute job service start h.ends).result = .ok report ∧ report.failures = fs) ↔
      ∃ deeds, job.GoesThrough service start deeds ∧ (∀ d ∈ deeds, d.IsIsolated) ∧ fs = failures 1 deeds := by
  constructor
  · rintro ⟨report, hreturned, rfl⟩
    rcases h.refused_or_course with ⟨f, -, hresult, -⟩ | ⟨source, s, hasked, c, -, hresult, -⟩
    · cases hresult.symm.trans hreturned
    · rw [hresult] at hreturned
      cases hfault : c.fault? with
      | some f =>
        rw [hfault] at hreturned
        cases hreturned
      | none =>
        rw [hfault] at hreturned
        cases hreturned
        obtain ⟨hgoes, hisolated⟩ := c.goesThrough hasked hnever hfault
        exact ⟨c.deeds, hgoes, hisolated, rfl⟩
  · rintro ⟨deeds, hgoes, hisolated, rfl⟩
    exact h.returned_of_goesThrough hnever hgoes hisolated

end

/-! ### What the user is told -/

theorem whole_numbered (before after : String) (n : Nat) (hbefore : Text.Whole before.toList)
    (hafter : Text.Whole after.toList) : Text.Whole s!"{before}{n}{after}".toList := by
  simp only [Text.whole_toList_append]
  exact ⟨⟨hbefore, Text.whole_toString n⟩, hafter⟩

theorem whole_processing (index : Nat) : Text.Whole s!"Processing item {index}...".toList :=
  whole_numbered "Processing item " "..." index (by decide) (by decide)

theorem Deed.whole_lines (d : Deed) (index : Nat) :
    ∀ line ∈ d.lines index, line.1 = false → Text.Whole line.2.toList := by
  intro line hline hout
  rcases List.mem_cons.1 hline with rfl | hwarning
  · exact whole_processing index
  · cases hanswer : d.answer with
    | ok result => simp [hanswer] at hwarning
    | error f =>
      simp only [hanswer, List.mem_singleton] at hwarning
      subst hwarning
      cases hout

theorem Finish.whole_lines (finish : Finish) (done : Nat) :
    ∀ line ∈ finish.lines done, Text.Whole line.2.toList := by
  cases finish with
  | exhausted | unanswered | failedPull => exact fun line hline => absurd hline List.not_mem_nil
  | cancelled =>
    exact List.forall_mem_singleton.2
      (whole_numbered "Cancelled after " " items" done (by decide) (by decide))
  | unrendered | stopped => exact List.forall_mem_singleton.2 (whole_processing (done + 1))

/-- No half of a character stands in what an undisturbed run has for the output stream. -/
theorem Job.Undisturbed.whole_lines (h : job.Undisturbed service start) :
    ∀ line ∈ (execute job service start h.ends).lines, line.1 = false → Text.Whole line.2.toList := by
  rcases h.refused_or_course with ⟨f, -, -, -, htrace⟩ | ⟨source, s, -, c, -, -, -, htrace⟩
  · rw [Outcome.lines, htrace]
    exact fun line hline => absurd hline List.not_mem_nil
  · rw [Outcome.lines, htrace, c.trace_lines]
    intro line hline hout
    rcases List.mem_append.1 hline with hline | hlast
    · rcases List.mem_append.1 hline with hdeed | hfinish
      · obtain ⟨⟨d, index⟩, -, hd⟩ := List.mem_flatMap.1 hdeed
        exact d.whole_lines index line hd hout
      · exact c.finish.whole_lines _ line hfinish
    · split at hlast
      · rw [List.mem_singleton.1 hlast]
        exact whole_numbered "Processed " " items" _ (by decide) (by decide)
      · cases hlast

/-! ### Runs without a ledger -/

/-- Without a ledger nothing is written, and no part of a run makes one. -/
theorem Job.Records.quietWhile {kept : ρ → Recorded} (hrecords : job.Records kept) :
    job.QuietWhile fun r => (kept r).ledger? = none where
  logs e r hnone := by
    obtain ⟨hlog, hkept⟩ := hrecords.logs e r
    simp only [Recorded.log, hnone] at hlog hkept
    exact ⟨hlog, by rw [Job.heard, hkept, hnone]⟩
  finalizes summary r hnone := by
    obtain ⟨hfinalize, -⟩ := hrecords.finalizes summary r
    simpa only [Recorded.finalize, hnone] using hfinalize
  acts text context r hnone := by rw [hrecords.acts, hnone]

end Foreach.Batch
