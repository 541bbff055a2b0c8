import Foreach.Proofs.Batch.Accounts

/-!
What the counts of a summary say.

A report counts as succeeded what did not fail. So an item that was met and then left without a result or a
failure counts as succeeded too. There is such an item just if the run broke off within one, and then there
is one: each turn that goes on leaves none, whatever the observer does.
-/

namespace Foreach.Batch

variable {σ ρ : Type}

/-- How many of the items met have neither a result nor a failure. -/
def Report.pending (r : Report) : Int := r.processed - r.results.length - r.failures.length

theorem Report.succeeded_eq (r : Report) : r.succeeded = r.results.length + r.pending := by
  simp only [succeeded, failed, pending]
  omega

/-- The run breaks off within the item with this number: there is no text for it, or the observer does not
take its beginning, or the action is stopped hard. -/
inductive Job.CutsShort (job : Job ρ) (index : Int) (item : Item) (seen : Context) (r : ρ) : Prop
  | unrendered {f : Fault} (hrender : item.render job.template = .error f) :
      CutsShort job index item seen r
  | unannounced {text : String} {f : Fault} (hrender : item.render job.template = .ok text)
      (hlog : (job.observer.log (.itemStarted index text) r).1 = .error f) :
      CutsShort job index item seen r
  | stopped {text : String} {f : Fault} (hrender : item.render job.template = .ok text)
      (hlog : (job.observer.log (.itemStarted index text) r).1 = .ok ())
      (hperform : (job.perform index (text, seen) r).1 = .error f) (hhard : f.isOrdinary = false) :
      CutsShort job index item seen r

namespace Loop

variable {job : Job ρ} {checkpoint : Checkpoint} {source : Source σ} {p : Progress σ ρ}

/-- The next turn meets an item and breaks off within it. -/
def BreaksOff (job : Job ρ) (source : Source σ) (p : Progress σ ρ) : Prop :=
  job.cancels p.checks = .ok false ∧
    ∃ item t, source.pull ⟨p.context, p.source⟩ = (.ok (some item), t) ∧
      job.CutsShort (p.report.processed + 1) item t.context p.runner

theorem breaksOff_iff {item : Item} {t : Surroundings σ} (hcancel : job.cancels p.checks = .ok false)
    (hpull : source.pull ⟨p.context, p.source⟩ = (.ok (some item), t)) : BreaksOff job source p ↔
      job.CutsShort (p.report.processed + 1) item t.context p.runner := by
  constructor
  · rintro ⟨-, other, u, hother, hcut⟩
    cases hpull.symm.trans hother
    exact hcut
  · exact fun hcut => ⟨hcancel, item, t, hpull, hcut⟩

theorem not_breaksOff_of_pull (hpull : ∀ item, (source.pull ⟨p.context, p.source⟩).1 ≠ .ok (some item)) :
    ¬ BreaksOff job source p := by
  rintro ⟨-, item, t, hother, -⟩
  exact hpull item (congrArg Prod.fst hother)

/-! ### One turn -/

/-- The report at the end of a part of a turn. -/
def reportOf : Turn σ ρ → Report := Sum.elim (·.report) (·.progress.report)

/-- A part of a turn leaves one item pending if it was broken off, and fails then, and none otherwise. -/
def Tells (t : Turn σ ρ) (broken : Prop) : Prop :=
  (broken ∧ ∃ s, t = .inr s ∧ s.fault?.isSome = true ∧ s.progress.report.pending = 1) ∨
    (¬ broken ∧ (reportOf t).pending = 0)

theorem reportOf_log (job : Job ρ) (p : Progress σ ρ) (e : Entry) : reportOf (log job p e) = p.report := by
  unfold log
  dsimp only
  split <;> rfl

theorem Tells.restored {t : Turn σ ρ} {broken : Prop} (h : Tells t broken) :
    Tells (restored checkpoint t) broken := by
  rcases h with ⟨hbroken, s, rfl, hs⟩ | ⟨hwhole, ht⟩
  · exact .inl ⟨hbroken, s, rfl, hs⟩
  · refine .inr ⟨hwhole, ?_⟩
    cases t <;> exact ht

theorem log_of_error {e : Entry} {f : Fault} (hlog : (job.observer.log e p.runner).1 = .error f) :
    log job p e = abort ({ p with runner := job.heard e p.runner }.add [.logged e]) f := by
  unfold log Job.heard
  generalize job.observer.log e p.runner = told at hlog
  obtain ⟨result, r⟩ := told
  cases hlog
  rfl

theorem invoke_tells {item : Item} {text : String} (hrender : item.render job.template = .ok text)
    (hp : p.report.pending = 1) :
    Tells (invoke job p text) (job.CutsShort p.report.processed item p.context p.runner) := by
  cases hlog : (job.observer.log (.itemStarted p.report.processed text) p.runner).1 with
  | error f =>
    have hstarted : log job p (.itemStarted p.report.processed text) = _ := log_of_error hlog
    simp only [invoke, hstarted, andThen, abort]
    exact .inl ⟨.unannounced hrender hlog, _, rfl, rfl, hp⟩
  | ok =>
    have hstarted : log job p (.itemStarted p.report.processed text) = _ := log_of_ok hlog
    have hinvoke : job.runner.invoke text
        ⟨p.context, job.heard (.itemStarted p.report.processed text) p.runner⟩ =
      job.perform p.report.processed (text, p.context) p.runner := rfl
    have hcut : job.CutsShort p.report.processed item p.context p.runner →
        ∃ f, (job.perform p.report.processed (text, p.context) p.runner).1 = .error f ∧
          f.isOrdinary = false := by
      rintro (hother | ⟨hother, hfailed⟩ | ⟨hother, -, hstopped, hhard⟩) <;>
        cases hrender.symm.trans hother
      · cases hlog.symm.trans hfailed
      · exact ⟨_, hstopped, hhard⟩
    simp only [invoke, hstarted, andThen, Progress.add, hinvoke]
    rcases hperform : job.perform p.report.processed (text, p.context) p.runner with ⟨f | result, u⟩
    · cases hordinary : f.isOrdinary with
      | false =>
        simp only [hordinary, Bool.false_eq_true, if_false]
        exact .inl ⟨.stopped hrender hlog (congrArg Prod.fst hperform) hordinary, _, rfl, rfl, hp⟩
      | true =>
        simp only [hordinary, if_true]
        refine .inr ⟨fun hbroken => ?_, ?_⟩
        · obtain ⟨g, hstopped, hhard⟩ := hcut hbroken
          rw [hperform] at hstopped
          cases hstopped
          cases hordinary.symm.trans hhard
        · simp only [reportOf_log]
          simp only [Report.pending, List.length_append, List.length_singleton] at hp ⊢
          omega
    · refine .inr ⟨fun hbroken => ?_, ?_⟩
      · obtain ⟨g, hstopped, -⟩ := hcut hbroken
        rw [hperform] at hstopped
        cases hstopped
      · simp only [reportOf_log]
        simp only [Report.pending, List.length_append, List.length_singleton] at hp ⊢
        omega

theorem process_tells (item : Item) (hp : p.report.pending = 1) :
    Tells (process job p item) (job.CutsShort p.report.processed item p.context p.runner) := by
  cases hrender : item.render job.template with
  | error f =>
    rw [process_of_unrendered hrender]
    exact .inl ⟨.unrendered hrender, _, rfl, rfl, hp⟩
  | ok text =>
    rw [process_of_render hrender]
    exact invoke_tells (p := p.add [.told s!"Processing item {p.report.processed}..."]) hrender hp

/-- A turn that begins with nothing pending leaves an item pending just if it breaks off within it. -/
theorem turn_tells (hp : p.report.pending = 0) :
    Tells (turn job checkpoint source p) (BreaksOff job source p) := by
  unfold turn
  dsimp only
  cases hcancel : job.cancels p.checks with
  | error f => exact .inr ⟨by simp [BreaksOff, hcancel], hp⟩
  | ok cancelled =>
    cases cancelled with
    | true => exact .inr ⟨by simp [BreaksOff, hcancel], hp⟩
    | false =>
      simp only [advance, Progress.add]
      rcases hpull : source.pull ⟨p.context, p.source⟩ with ⟨f | _ | item, t⟩
      · exact .inr ⟨not_breaksOff_of_pull (by simp [hpull]), hp⟩
      · exact .inr ⟨not_breaksOff_of_pull (by simp [hpull]), hp⟩
      · rw [breaksOff_iff hcancel hpull]
        refine Tells.restored (process_tells item ?_)
        simp only [Report.pending] at hp ⊢
        omega

/-! ### Whole runs -/

/-- A loop that begins with nothing pending leaves an item pending just if one of its turns breaks off. -/
theorem run_tells (ends : Iteration.Ends (turn job checkpoint source) p) (hp : p.report.pending = 0) :
    Tells (.inr (Iteration.run (turn job checkpoint source) p ends))
      (∃ turns q, Iteration.after (turn job checkpoint source) turns p = .inl q ∧
        BreaksOff job source q) := by
  -- `ends` stays in the goal as an argument of the run, so the induction is on a copy.
  have hends := ends
  induction hends with
  | intro p _ ih =>
    have hturn : Tells (turn job checkpoint source p) (BreaksOff job source p) := turn_tells hp
    cases hstep : turn job checkpoint source p with
    | inr s =>
      rw [Iteration.run_of_inr ends hstep, Iteration.exists_after_of_inr hstep, ← hstep]
      exact hturn
    | inl q =>
      rw [hstep] at hturn
      obtain ⟨-, s, hs, -⟩ | ⟨hwhole, hq⟩ := hturn
      · cases hs
      · -- A turn that goes on has left nothing pending, which is what the next one begins with.
        rw [Iteration.run_of_inl ends hstep, Iteration.exists_after_of_inl hstep,
          or_iff_right hwhole]
        exact ih q hstep (ends.next hstep) hq

end Loop

/-- What follows the loop changes nothing about the items. -/
theorem Loop.Tells.closed {s : Stop σ ρ} {broken : Prop} (h : Loop.Tells (.inr s) broken)
    (source : Source σ) : Loop.Tells (.inr (close source (complete s))) broken := by
  obtain ⟨hfault, hreport, -⟩ := close_eq source (complete s)
  rcases h with ⟨hbroken, q, ⟨⟩, hraised, hs⟩ | ⟨hwhole, hs⟩
  · refine .inl ⟨hbroken, _, rfl, ?_, ?_⟩
    · rw [hfault, complete_eq, Option.isSome_or, hraised, Bool.or_true]
    · rw [hreport, complete_eq]
      exact hs
  · refine .inr ⟨hwhole, ?_⟩
    rw [Loop.reportOf, Sum.elim_inr, hreport, complete_eq]
    exact hs

variable {job : Job ρ} {service : Service σ} {start : Start σ ρ}

/-- The run gets to a turn that breaks off within its item. -/
def Job.BreaksOff (job : Job ρ) (service : Service σ) (start : Start σ ρ) : Prop :=
  ∃ p source q, job.begin start = .inl p ∧ job.opening service p = (.ok (some source), q) ∧
    ∃ turns r, Iteration.after (Loop.turn job start.context.snapshot source) turns q = .inl r ∧
      Loop.BreaksOff job source r

theorem conduct_tells {p : Progress σ ρ} (hbegin : job.begin start = .inl p)
    (ends : job.LoopEnds service start.context.snapshot p) :
    Loop.Tells (.inr (conduct job service start.context.snapshot p ends))
      (job.BreaksOff service start) := by
  obtain ⟨-, rfl⟩ := Job.begin_eq_inl hbegin
  rcases job.refused_or_opened service start with ⟨f, hrefused⟩ | ⟨source, s, hasked⟩
  · have hopening : Job.refusal? (job.opening service (job.begun start)).1 = some f := hrefused
    rw [conduct_of_refused hopening]
    refine .inr ⟨?_, rfl⟩
    rintro ⟨p, source, q, hp, hopen, -⟩
    cases hbegin.symm.trans hp
    rw [hopen] at hopening
    cases hopening
  · have hopen := Job.opening_of_asked hasked
    have hbreaks : job.BreaksOff service start ↔ ∃ turns r, Iteration.after
        (Loop.turn job start.context.snapshot source) turns (job.opened start s) = .inl r ∧
          Loop.BreaksOff job source r := by
      constructor
      · rintro ⟨p, other, q, hp, hother, hbroken⟩
        cases hbegin.symm.trans hp
        cases hopen.symm.trans hother
        exact hbroken
      · exact fun hbroken => ⟨_, source, _, hbegin, hopen, hbroken⟩
    rw [conduct_of_opened hopen, hbreaks]
    exact (Loop.run_tells (ends source _ hopen) rfl).closed source

/-- What the counts of a run say. It broke off within an item, or it did not. -/
structure Outcome.Tallied (o : Outcome σ ρ) (brokenOff : Prop) : Prop where
  total : o.report.summary.processed =
    o.report.summary.succeeded + o.report.summary.failed.length
  /-- An action gave a result for each item that counts as succeeded, -/
  whole : ¬ brokenOff → o.report.summary.succeeded = o.report.results.length
  /-- but for the one that the run broke off in. -/
  broken : brokenOff → o.report.summary.succeeded = o.report.results.length + 1
  raises : brokenOff → ∃ f, o.result = .error f
  /-- The last entry gives the summary. -/
  told : o.counted = true → o.entries.getLast? = some (.finished o.report.summary)

theorem Outcome.Tallied.of_pending {o : Outcome σ ρ} {brokenOff : Prop}
    (hpending : (brokenOff ∧ o.report.pending = 1 ∧ ∃ f, o.result = .error f) ∨
      (¬ brokenOff ∧ o.report.pending = 0))
    (htold : o.counted = true → o.entries.getLast? = some (.finished o.report.summary)) :
    o.Tallied brokenOff where
  total := by simp [Report.summary, Report.succeeded, Report.failed]
  whole hwhole := by
    obtain ⟨hbroken, -⟩ | ⟨-, hnone⟩ := hpending
    · exact absurd hbroken hwhole
    · rw [Report.summary, Report.succeeded_eq, hnone, Int.add_zero]
  broken hbroken := by
    obtain ⟨-, hone, -⟩ | ⟨hwhole, -⟩ := hpending
    · rw [Report.summary, Report.succeeded_eq, hone]
    · exact absurd hbroken hwhole
  raises hbroken := by
    obtain ⟨-, -, hraised⟩ | ⟨hwhole, -⟩ := hpending
    · exact hraised
    · exact absurd hbroken hwhole
  told := htold

theorem execute_of_unbegun {s : Stop σ ρ} (hbegin : job.begin start = .inr s)
    (ends : job.Ends service start) : execute job service start ends = s.unbegun := by
  unfold execute
  split
  next h =>
    cases hbegin.symm.trans h
    rfl
  next h => cases hbegin.symm.trans h

/-- A run that the observer was not even told of has met nothing. -/
theorem unbegun_tallied {s : Stop σ ρ} (hbegin : job.begin start = .inr s) :
    s.unbegun.Tallied (job.BreaksOff service start) := by
  have hreport := Loop.reportOf_log job (job.blank start) job.opener
  rw [show Loop.log job (job.blank start) job.opener = .inr s from hbegin] at hreport
  refine .of_pending (.inr ⟨?_, ?_⟩) fun hcounted => nomatch hcounted
  · rintro ⟨p, source, q, hp, -⟩
    cases hbegin.symm.trans hp
  · exact congrArg Report.pending hreport

/-- Putting back the context and closing the report changes nothing about the items. -/
theorem conclude_tallied {s : Stop σ ρ} {brokenOff : Prop} (h : Loop.Tells (.inr s) brokenOff)
    (checkpoint : Checkpoint) : (conclude job checkpoint s).Tallied brokenOff := by
  refine .of_pending ?_ fun _ => by simp [Outcome.entries, conclude, Event.entry?]
  rcases h with ⟨hbroken, _, ⟨⟩, hraised, hs⟩ | ⟨hwhole, hs⟩
  · obtain ⟨f, hf⟩ := Option.isSome_iff_exists.1 hraised
    refine .inl ⟨hbroken, hs, ?_⟩
    unfold conclude
    dsimp only
    rw [hf]
    cases (settle job _ s.progress.runner).1 with
    | none => exact ⟨f, rfl⟩
    | some g => exact ⟨g, rfl⟩
  · exact .inr ⟨hwhole, hs⟩

theorem Job.tallied (job : Job ρ) (service : Service σ) (start : Start σ ρ)
    (ends : job.Ends service start) :
    (execute job service start ends).Tallied (job.BreaksOff service start) := by
  cases hbegin : job.begin start with
  | inr s =>
    rw [execute_of_unbegun hbegin]
    exact unbegun_tallied hbegin
  | inl p =>
    rw [execute_of_begun hbegin]
    exact conclude_tallied (conduct_tells hbegin (ends p hbegin)) _

/-- The counts of a run agree with what its actions gave, unless it broke off within an item: then that
item counts as succeeded. The summary says the same in the last entry, and in the files of a recorded run. -/
theorem execute_tallied (job : Job ρ) (service : Service σ) (start : Start σ ρ)
    (ends : job.Ends service start) :
    (execute job service start ends).Tallied (job.BreaksOff service start) ∧
      ∀ (kept : ρ → Recorded) (l : Ledger), job.Undisturbed service start → job.Records kept →
        (kept start.runner).ledger? = some l →
          (execute job service start ends).report.summary.IsWritten
            { l with total := l.total + (execute job service start ends).entries.length } job.now
            (kept (execute job service start ends).runner).files :=
  ⟨job.tallied service start ends, fun _ _ hcalm hrecords hl => hcalm.isWritten hrecords hl⟩

/-- A recorded job whose action is stopped hard at the second item. -/
def interruptedJob : Job Recorded where
  iterable := "numbers"
  template := "{n}"
  runner := Recorded.runner (Script.runner Files ⟨"second stops", [.reset], [("2", .hardStop "no")]⟩)
  observer := Recorded.observer (.int 0)
  cancel := none
  now := .int 0

theorem interruptedJob_breaksOff :
    interruptedJob.BreaksOff (Service.only "numbers" Visit.replayer) recordedStart := by
  have hok : ∀ {told : Except Fault Unit}, told.isOk = true → told = .ok () := by
    rintro (f | _) ⟨⟩
    rfl
  have hbegin : interruptedJob.begin recordedStart = .inl (interruptedJob.begun recordedStart) :=
    Loop.log_of_ok (hok (by decide +kernel))
  have hwatched : Iteration.after (Loop.turn interruptedJob.watched recordedStart.context.snapshot
      Visit.replay) 1 (interruptedJob.watched.opened recordedStart.watched ⟨.empty, numbers⟩) =
    .inl _ := rfl
  obtain ⟨-, hafter⟩ := Loop.after_mirrors hwatched (by decide +kernel)
  refine ⟨_, Visit.replay, _, hbegin, rfl, 1, _, hafter, rfl, .entry .null (.record [("n", .int 2)]), _,
    rfl, .stopped (show _ = Except.ok "2" from rfl) (hok ?_) (show _ = Except.error (.hardStop "no") from rfl) rfl⟩
  decide +kernel

theorem interruptedJob_undisturbed :
    interruptedJob.Undisturbed (Service.only "numbers" Visit.replayer) recordedStart := by
  have hasked : interruptedJob.asked (Service.only "numbers" Visit.replayer) recordedStart =
    (.ok (some Visit.replay), ⟨.empty, numbers⟩) := rfl
  have hafter : Iteration.after (Loop.turn interruptedJob.watched recordedStart.context.snapshot
      Visit.replay) 1 (interruptedJob.watched.opened recordedStart.watched ⟨.empty, numbers⟩) =
    .inl _ := rfl
  refine Job.undisturbed_of_after hasked hafter rfl ?_
  decide +kernel

theorem execute_tallied_interrupted :
    ∃ ends : interruptedJob.Ends (Service.only "numbers" Visit.replayer) recordedStart,
      (execute interruptedJob _ recordedStart ends).Tallied True ∧
      (execute interruptedJob _ recordedStart ends).report.summary.IsWritten
        { freshLedger with
          total := freshLedger.total + (execute interruptedJob _ recordedStart ends).entries.length }
        interruptedJob.now (execute interruptedJob _ recordedStart ends).runner.files := by
  have hcalm := interruptedJob_undisturbed
  have hrecords : interruptedJob.Records fun r => r := Job.records_of_files _ _ _ _ _
  obtain ⟨htallied, hwritten⟩ := execute_tallied interruptedJob _ recordedStart hcalm.ends
  rw [eq_true interruptedJob_breaksOff] at htallied
  exact ⟨hcalm.ends, htallied, hwritten (fun r => r) _ hcalm hrecords rfl⟩

/-- So what counts as succeeded need not have succeeded. -/
theorem not_forall_succeeded_eq_results :
    ¬ ∀ {σ ρ : Type} (job : Job ρ) (service : Service σ) (start : Start σ ρ)
      (ends : job.Ends service start), (execute job service start ends).report.summary.succeeded =
        (execute job service start ends).report.results.length := by
  intro h
  have htallied := interruptedJob.tallied _ recordedStart interruptedJob_undisturbed.ends
  have hcounts := (htallied.broken interruptedJob_breaksOff).symm.trans (h _ _ _ _)
  omega

end Foreach.Batch
