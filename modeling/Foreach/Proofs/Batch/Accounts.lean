import Foreach.Proofs.Batch.Cancellation
import Foreach.Proofs.Batch.Recording

/-!
The accounts of runs: what the counters, the last entry and the summary say agrees.

All three are taken from one report, when nothing can change it any more, and each once for a run. An input
that makes no request leaves none of them different.
-/

namespace Foreach.Batch

variable {σ ρ : Type}

/-- The run got to a check at which its token said so. -/
def Job.IsCancelled (job : Job ρ) (service : Service σ) (start : Start σ ρ) : Prop :=
  ∃ check, job.Reaches service start check ∧ job.cancels check = .ok true

/-- The entry is about the end of a run. -/
def Entry.isEnd : Entry → Bool
  | .finished _ => true
  | _ => false

/-- What is counted and kept of one run. -/
structure Outcome.Accounts (o : Outcome σ ρ) (job : Job ρ) (service : Service σ) (start : Start σ ρ) :
    Prop where
  batches : ∀ m, (o.count m).batches = m.batches + 1
  items : ∀ m, (o.count m).items = m.items + o.report.processed
  failures : ∀ m, (o.count m).failures = m.failures + o.report.failures.length
  /-- A run counts as aborted if it raises, -/
  aborted : ∀ m, (∀ f, o.result = .error f → (o.count m).aborted = m.aborted + 1) ∧
    ∀ r, o.result = .ok r → (o.count m).aborted = m.aborted
  /-- and as cancelled if its token said so. -/
  cancelled : ∀ m, (job.IsCancelled service start → (o.count m).cancelled = m.cancelled + 1) ∧
    (¬ job.IsCancelled service start → (o.count m).cancelled = m.cancelled)
  returned : ∀ r, o.result = .ok r → r = o.report
  lastEntry : o.entries.filter Entry.isEnd = [.finished o.report.summary]
  /-- Its ledger, if it has one, closes with this entry and with a summary of the same fields. -/
  written : ∀ (kept : ρ → Recorded) (l : Ledger), job.Records kept →
    (kept start.runner).ledger? = some l →
      o.report.summary.IsWritten { l with total := l.total + o.entries.length } job.now
        (kept o.runner).files

/-- The counters and the state of the action after a run, or after an input that made none. -/
def leave (m : Metrics) (start : Start σ ρ) : Except Fault (Outcome σ ρ) → Metrics × ρ
  | .error _ => (m, start.runner)
  | .ok o => (o.count m, o.runner)

/-- Counters that runs in a row can lead to, one after another from the beginning. -/
inductive Metrics.Reachable : Metrics → Prop
  | empty : Reachable .empty
  | executed {m : Metrics} {σ ρ : Type} {job : Job ρ} {service : Service σ} {start : Start σ ρ}
      (h : Reachable m) (hcalm : job.Undisturbed service start) :
      Reachable ((execute job service start hcalm.ends).count m)
  | ran {m : Metrics} {σ ρ : Type} {job : Request → Job ρ} {service : Service σ} {start : Start σ ρ}
      {input : String} {ends : Ends job service start input} (h : Reachable m)
      (hcalm : ∀ r, Request.parse input = .ok r → (job r).Undisturbed service start) :
      Reachable (leave m start (run job service start input ends)).1

/-! ### One run -/

theorem length_results_add_length_failures (first : Nat) (ds : List Deed) :
    (results ds).length + (failures first ds).length = ds.length := by
  induction ds generalizing first with
  | nil => rfl
  | cons d ds ih =>
    have hrest := ih (first + 1)
    rw [results_cons, failures_cons]
    obtain ⟨text, seen, _ | _⟩ := d <;>
      simp [Deed.result?, Deed.fault?, Except.toOption] <;> omega

theorem entriesOf_filter_isEnd (first : Nat) (ds : List Deed) :
    (entriesOf first ds).filter Entry.isEnd = [] := by
  induction ds generalizing first with
  | nil => rfl
  | cons d ds ih =>
    rw [entriesOf_cons, List.filter_append, ih]
    obtain ⟨text, seen, _ | _⟩ := d <;> rfl

/-- Only the last entry is about the end. -/
theorem RunCourse.filter_isEnd {job : Job ρ} {start : Start σ ρ} {source : Source σ}
    {s : Surroundings σ} (c : RunCourse job start source s) :
    (c.trace.filterMap Event.entry?).filter Entry.isEnd = [.finished c.report.summary] := by
  have hlast : (c.finish.entries c.calls.length).filter Entry.isEnd = [] := by
    cases c.finish <;> rfl
  simp only [c.trace_entries, RunCourse.itemEntries, List.filter_append, List.filter_cons,
    entriesOf_filter_isEnd, hlast]
  rfl

namespace Job.Undisturbed

variable {job : Job ρ} {service : Service σ} {start : Start σ ρ}
  (h : job.Undisturbed service start)

theorem count_eq (m : Metrics) : (execute job service start h.ends).count m =
    m.record (execute job service start h.ends).report := by
  obtain ⟨-, -, p, -, hbegin, -⟩ := h.conducted
  have hcounted : (execute job service start h.ends).counted = true := by
    rw [execute_of_begun hbegin]
    rfl
  rw [Outcome.count, if_pos hcounted]

/-- The report is marked as aborted if the run raises, and is what the run returns otherwise. -/
theorem aborted_or_returned :
    (∃ f, (execute job service start h.ends).result = .error f ∧
      (execute job service start h.ends).report.aborted = true) ∨
    ((execute job service start h.ends).result = .ok (execute job service start h.ends).report ∧
      (execute job service start h.ends).report.aborted = false) := by
  rcases h.refused_or_course with ⟨f, -, hresult, hreport, -⟩ |
    ⟨source, s, -, c, -, hresult, hreport, -⟩
  · exact .inl ⟨f, hresult, by rw [hreport]; rfl⟩
  · rw [hresult, hreport]
    cases hfault : c.fault? with
    | some f => exact .inl ⟨f, rfl, by simp [RunCourse.report, hfault]⟩
    | none => exact .inr ⟨rfl, by simp [RunCourse.report, hfault]⟩

/-- The report is marked as cancelled if the token said so. -/
theorem cancelled_iff : (execute job service start h.ends).report.cancelled = true ↔
    job.IsCancelled service start := by
  constructor
  · intro hcancelled
    rcases h.refused_or_course with ⟨f, -, -, hreport, -⟩ |
      ⟨source, s, -, c, hreaches, -, hreport, -⟩
    · rw [hreport] at hcancelled
      cases hcancelled
    · refine ⟨c.calls.length, hreaches, ?_⟩
      rw [hreport] at hcancelled
      have hlast := c.finishes
      rw [Nat.zero_add] at hlast
      cases hfinish : c.finish <;>
        simp only [RunCourse.report, hfinish, Finish.isCancelled, Bool.false_eq_true] at hcancelled
      rw [hfinish] at hlast
      generalize c.left = left at hlast
      cases hlast with
      | cancelled hcancel => exact hcancel
  · rintro ⟨check, hreaches, hcancel⟩
    obtain ⟨-, source, s, -, c, hfinish, -, -, -, ends, hreport, -⟩ :=
      hreaches.exists_cancelled hcancel
    rw [hreport]
    simp only [RunCourse.report, hfinish, Finish.isCancelled]

/-- No more items failed than were met. -/
theorem length_failures_le : ((execute job service start h.ends).report.failures.length : Int) ≤
    (execute job service start h.ends).report.processed := by
  rcases h.refused_or_course with ⟨f, -, -, hreport, -⟩ | ⟨source, s, -, c, -, -, hreport, -⟩
  · rw [hreport]
    exact Int.le_refl 0
  · rw [hreport]
    have hlength := length_results_add_length_failures 1 c.deeds
    have hcalls : c.deeds.length = c.calls.length := Job.deeds_length _ _ _ _
    simp only [RunCourse.report]
    omega

theorem filter_isEnd : (execute job service start h.ends).entries.filter Entry.isEnd =
    [.finished (execute job service start h.ends).report.summary] := by
  rcases h.refused_or_course with ⟨f, -, -, hreport, htrace⟩ |
    ⟨source, s, -, c, -, -, hreport, htrace⟩
  · rw [Outcome.entries, htrace, hreport]
    rfl
  · rw [Outcome.entries, htrace, hreport]
    exact c.filter_isEnd

theorem accounts : (execute job service start h.ends).Accounts job service start where
  batches m := by
    rw [h.count_eq]
    rfl
  items m := by
    rw [h.count_eq]
    rfl
  failures m := by
    rw [h.count_eq]
    rfl
  aborted m := by
    rw [h.count_eq]
    rcases h.aborted_or_returned with ⟨f, hresult, haborted⟩ | ⟨hresult, haborted⟩ <;>
      simp [hresult, haborted, Metrics.record]
  cancelled m := by
    rw [h.count_eq, ← h.cancelled_iff]
    cases hcancelled : (execute job service start h.ends).report.cancelled <;>
      simp [hcancelled, Metrics.record]
  returned r hr := by
    rcases h.aborted_or_returned with ⟨f, hresult, -⟩ | ⟨hresult, -⟩ <;> rw [hresult] at hr <;> cases hr
    rfl
  lastEntry := h.filter_isEnd
  written _ _ hrecords hl := h.isWritten hrecords hl

end Job.Undisturbed

/-! ### Runs in a row -/

/-- Counters in which no part is larger than its whole. -/
structure Metrics.IsConsistent (m : Metrics) : Prop where
  failures : m.failures ≤ m.items
  aborted : m.aborted ≤ m.batches
  cancelled : m.cancelled ≤ m.batches

theorem Metrics.IsConsistent.record {m : Metrics} (h : m.IsConsistent) {r : Report}
    (hr : (r.failures.length : Int) ≤ r.processed) : (m.record r).IsConsistent where
  failures := by
    have hm := h.failures
    simp only [Metrics.record, Report.failed]
    omega
  aborted := Nat.add_le_add h.aborted (Bool.toNat_le _)
  cancelled := Nat.add_le_add h.cancelled (Bool.toNat_le _)

theorem Metrics.Reachable.isConsistent {m : Metrics} (h : m.Reachable) : m.IsConsistent := by
  induction h with
  | empty => exact ⟨Int.le_refl _, Nat.le_refl _, Nat.le_refl _⟩
  | executed _ hcalm ih =>
    rw [hcalm.count_eq]
    exact ih.record hcalm.length_failures_le
  | @ran m σ ρ job service start input ends _ hcalm ih =>
    cases hparse : Request.parse input with
    | error f =>
      rw [run_of_no_request ends hparse]
      exact ih
    | ok r =>
      rw [run_of_request ends hparse]
      dsimp only [leave]
      rw [(hcalm r hparse).count_eq]
      exact ih.record (hcalm r hparse).length_failures_le

/-- Each run that its observer does not disturb is accounted for once and in full, an input that makes no
request leaves everything as it was, and so the counters are consistent after any runs. -/
theorem runs_accounted :
    (∀ {σ ρ : Type} {job : Job ρ} {service : Service σ} {start : Start σ ρ}
      (h : job.Undisturbed service start),
      (execute job service start h.ends).Accounts job service start) ∧
    (∀ {σ ρ : Type} {job : Request → Job ρ} {service : Service σ} {start : Start σ ρ}
      {input : String} {ends : Ends job service start input} (m : Metrics),
      (∀ r, ∀ hr : Request.parse input = .ok r, run job service start input ends =
        .ok (execute (job r) service start (ends r hr))) ∧
      ∀ f, Request.parse input = .error f → run job service start input ends = .error f ∧
        leave m start (run job service start input ends) = (m, start.runner)) ∧
    ∀ {m : Metrics}, m.Reachable → m.IsConsistent := by
  refine ⟨fun h => h.accounts, fun m => ⟨fun r => run_of_request _, fun f hf => ?_⟩,
    Metrics.Reachable.isConsistent⟩
  rw [run_of_no_request _ hf]
  exact ⟨rfl, rfl⟩

/-- A ledger in a directory of its own. -/
def freshLedger : Ledger := ⟨"r", none, ⟨"", ["r"]⟩, ["r"], .int 0, 0⟩

/-- The counting job on files, with a ledger. -/
def recordedJob (r : Request) : Job Recorded where
  iterable := r.iterable
  template := r.template
  runner := Recorded.runner (Script.runner Files ⟨"first fails", [.reset], [("1", .system "no")]⟩)
  observer := Recorded.observer (.int 0)
  cancel := none
  now := .int 0

def recordedStart : Start (List Visit) Recorded :=
  ⟨.empty, numbers, ⟨⟨[(freshLedger.place, .directory)]⟩, some freshLedger⟩⟩

theorem recordedJob_undisturbed : (recordedJob ⟨"numbers", "{n}"⟩).Undisturbed
    (Service.only "numbers" Visit.replayer) recordedStart := by
  have hasked : (recordedJob ⟨"numbers", "{n}"⟩).asked (Service.only "numbers" Visit.replayer)
    recordedStart = (.ok (some Visit.replay), ⟨.empty, numbers⟩) := rfl
  have hafter : Iteration.after (Loop.turn (recordedJob ⟨"numbers", "{n}"⟩).watched
      recordedStart.context.snapshot Visit.replay) 2
    ((recordedJob ⟨"numbers", "{n}"⟩).watched.opened recordedStart.watched ⟨.empty, numbers⟩) =
      .inl _ := rfl
  refine Job.undisturbed_of_after hasked hafter rfl ?_
  decide +kernel

theorem runs_accounted_recorded :
    let service := Service.only "numbers" Visit.replayer
    let job := recordedJob ⟨"numbers", "{n}"⟩
    ∃ h : job.Undisturbed service recordedStart,
      (execute job service recordedStart h.ends).report.summary.IsWritten
        { freshLedger with
          total := freshLedger.total + (execute job service recordedStart h.ends).entries.length }
        job.now (execute job service recordedStart h.ends).runner.files ∧
      ((execute job service recordedStart h.ends).count .empty).IsConsistent ∧
      ∀ ends, leave .empty recordedStart (run recordedJob service recordedStart "no request" ends) =
        (.empty, recordedStart.runner) := by
  intro service job
  obtain ⟨haccounts, hrun, hconsistent⟩ := runs_accounted
  have h : job.Undisturbed service recordedStart := recordedJob_undisturbed
  have hrecords : job.Records fun r => r := Job.records_of_files _ _ _ _ _
  exact ⟨h, (haccounts h).written (fun r => r) _ hrecords rfl, hconsistent (.executed .empty h),
    fun ends => ((hrun .empty).2 _ rfl).2⟩

end Foreach.Batch
