import Foreach.Proofs.Batch.Keep
import Foreach.Proofs.Batch.Reach

/-!
Runs whose observer could fail, but does not.

A watched observer passes its failures over and notes that there has been one. A watched run has a course,
then, and as long as nothing is noted it is the run without the watch. So what is told of courses holds of
every run that its observer does not disturb, and not only of those whose observer never fails.
-/

namespace Foreach.Batch

variable {σ ρ : Type}

/-- The observer with its failures passed over; the state tells whether there has been none. -/
def Observer.watched (o : Observer ρ) : Observer (ρ × Bool) where
  log e s := (.ok (), (o.log e s.1).2, s.2 && (o.log e s.1).1.isOk)
  finalize summary s :=
    (.ok (), (o.finalize summary s.1).2, s.2 && (o.finalize summary s.1).1.isOk)

theorem Observer.watched_quiet (o : Observer ρ) : o.watched.Quiet :=
  ⟨fun _ _ => rfl, fun _ _ => rfl⟩

namespace Job

/-- The job with its observer watched, which its action has no part in. -/
def watched (job : Job ρ) : Job (ρ × Bool) where
  iterable := job.iterable
  template := job.template
  runner :=
    { name := job.runner.name
      invoke := fun text s =>
        let (answer, t) := job.runner.invoke text ⟨s.context, s.state.1⟩
        (answer, ⟨t.context, t.state, s.state.2⟩) }
  observer := job.observer.watched
  cancel := job.cancel
  now := job.now

theorem watched_invoke {job : Job ρ} {text : String} {context : Context} {r : ρ × Bool}
    {answer : Except Fault ActionResult} {s : Surroundings ρ}
    (h : job.runner.invoke text ⟨context, r.1⟩ = (answer, s)) :
    job.watched.runner.invoke text ⟨context, r⟩ = (answer, ⟨s.context, s.state, r.2⟩) := by
  simp only [watched, h]

end Job

/-- A run under way without the note of the watch. -/
def Progress.unwatched (p : Progress σ (ρ × Bool)) : Progress σ ρ where
  source := p.source
  runner := p.runner.1
  context := p.context
  checks := p.checks
  report := p.report
  trace := p.trace

def Stop.unwatched (s : Stop σ (ρ × Bool)) : Stop σ ρ := ⟨s.progress.unwatched, s.fault?⟩

namespace Loop

def unwatched : Turn σ (ρ × Bool) → Turn σ ρ := Sum.map Progress.unwatched Stop.unwatched

/-- No failure of the observer has been noted by the end of the turn. -/
def IsCalm : Turn σ (ρ × Bool) → Prop := Sum.elim (·.runner.2 = true) (·.progress.runner.2 = true)

/-- One part of a turn, watched, is that part itself, unless a failure is noted by its end. -/
def Mirrors (p : Progress σ (ρ × Bool)) (watched : Turn σ (ρ × Bool)) (plain : Turn σ ρ) : Prop :=
  IsCalm watched → p.runner.2 = true ∧ plain = unwatched watched

theorem log_mirrors (job : Job ρ) (p : Progress σ (ρ × Bool)) (e : Entry) :
    Mirrors p (log job.watched p e) (log job p.unwatched e) := by
  intro hcalm
  rcases htold : job.observer.log e p.runner.1 with ⟨f | _, r⟩
  · simp [log, Job.watched, Observer.watched, IsCalm, Progress.add, htold, Except.isOk,
      Except.toBool] at hcalm
  · simp only [log, Job.watched, Observer.watched, IsCalm, Sum.elim_inl, Progress.add, htold,
      Bool.and_eq_true] at hcalm
    refine ⟨hcalm.1, ?_⟩
    simp [log, Job.watched, Observer.watched, unwatched, Progress.unwatched, Progress.add, htold]

theorem andThen_mirrors {p : Progress σ (ρ × Bool)} {t : Turn σ (ρ × Bool)} {u : Turn σ ρ}
    {next : Progress σ (ρ × Bool) → Turn σ (ρ × Bool)} {next' : Progress σ ρ → Turn σ ρ}
    (hfirst : Mirrors p t u) (hnext : ∀ q, Mirrors q (next q) (next' q.unwatched)) :
    Mirrors p (andThen t next) (andThen u next') := by
  intro hcalm
  cases t with
  | inl q =>
    obtain ⟨hq, hthen⟩ := hnext q hcalm
    obtain ⟨hp, rfl⟩ := hfirst hq
    exact ⟨hp, hthen⟩
  | inr s =>
    obtain ⟨hp, rfl⟩ := hfirst hcalm
    exact ⟨hp, rfl⟩

theorem invoke_mirrors (job : Job ρ) (p : Progress σ (ρ × Bool)) (text : String) :
    Mirrors p (invoke job.watched p text) (invoke job p.unwatched text) := by
  unfold invoke
  refine andThen_mirrors (log_mirrors job p _) fun q => ?_
  rcases hinvoke : job.runner.invoke text ⟨q.context, q.runner.1⟩ with ⟨f | result, s⟩
  · simp only [Progress.add, Progress.unwatched, Job.watched_invoke hinvoke, hinvoke]
    cases f.isOrdinary with
    | true => exact log_mirrors job _ _
    | false => exact fun hcalm => ⟨hcalm, rfl⟩
  · simp only [Progress.add, Progress.unwatched, Job.watched_invoke hinvoke, hinvoke]
    exact log_mirrors job _ _

theorem process_mirrors (job : Job ρ) (p : Progress σ (ρ × Bool)) (item : Item) :
    Mirrors p (process job.watched p item) (process job p.unwatched item) := by
  cases item with
  | bare v => exact fun hcalm => ⟨hcalm, rfl⟩
  | entry v vars =>
    simp only [process, Job.watched]
    cases Template.interpolate job.template vars with
    | error f => exact fun hcalm => ⟨hcalm, rfl⟩
    | ok text => exact invoke_mirrors job _ text

theorem restored_mirrors {p : Progress σ (ρ × Bool)} {t : Turn σ (ρ × Bool)} {u : Turn σ ρ}
    (checkpoint : Checkpoint) (h : Mirrors p t u) :
    Mirrors p (restored checkpoint t) (restored checkpoint u) := by
  intro hcalm
  cases t with
  | inl q =>
    obtain ⟨hp, rfl⟩ := h hcalm
    exact ⟨hp, rfl⟩
  | inr s =>
    obtain ⟨hp, rfl⟩ := h hcalm
    exact ⟨hp, rfl⟩

theorem turn_mirrors (job : Job ρ) (checkpoint : Checkpoint) (source : Source σ)
    (p : Progress σ (ρ × Bool)) :
    Mirrors p (turn job.watched checkpoint source p) (turn job checkpoint source p.unwatched) := by
  have hcancels : job.watched.cancels p.checks = job.cancels p.unwatched.checks := rfl
  simp only [turn, hcancels]
  cases job.cancels p.unwatched.checks with
  | error f => exact fun hcalm => ⟨hcalm, rfl⟩
  | ok cancelled =>
    cases cancelled with
    | true => exact fun hcalm => ⟨hcalm, rfl⟩
    | false =>
      simp only [advance, Progress.add, Progress.unwatched]
      generalize source.pull ⟨p.context, p.source⟩ = pulled
      obtain ⟨_ | _ | item, s⟩ := pulled
      · exact fun hcalm => ⟨hcalm, rfl⟩
      · exact fun hcalm => ⟨hcalm, rfl⟩
      · exact restored_mirrors checkpoint (process_mirrors job _ item)

/-- A loop that is calm to its end is the loop without the watch. -/
theorem run_mirrors {job : Job ρ} {checkpoint : Checkpoint} {source : Source σ}
    {p : Progress σ (ρ × Bool)} (ends : Iteration.Ends (turn job.watched checkpoint source) p)
    (hcalm : (Iteration.run (turn job.watched checkpoint source) p ends).progress.runner.2 = true) :
    p.runner.2 = true ∧ ∃ ends' : Iteration.Ends (turn job checkpoint source) p.unwatched,
      Iteration.run (turn job checkpoint source) p.unwatched ends' =
        (Iteration.run (turn job.watched checkpoint source) p ends).unwatched := by
  have hends := ends
  induction hends with
  | intro p _ ih =>
    have hmirrors := turn_mirrors job checkpoint source p
    cases hturn : turn job.watched checkpoint source p with
    | inl q =>
      rw [Iteration.run_of_inl ends hturn] at hcalm ⊢
      obtain ⟨hq, ends', hrun⟩ := ih q hturn (ends.next hturn) hcalm
      rw [hturn] at hmirrors
      obtain ⟨hp, hplain⟩ := hmirrors hq
      have hstep : turn job checkpoint source p.unwatched = .inl q.unwatched := hplain
      refine ⟨hp, Iteration.ends_of_inl hstep ends', ?_⟩
      rw [Iteration.run_of_inl _ hstep, hrun]
    | inr s =>
      rw [Iteration.run_of_inr ends hturn] at hcalm ⊢
      rw [hturn] at hmirrors
      obtain ⟨hp, hplain⟩ := hmirrors hcalm
      have hstop : turn job checkpoint source p.unwatched = .inr s.unwatched := hplain
      exact ⟨hp, Iteration.ends_of_inr hstop, Iteration.run_of_inr _ hstop⟩

/-- Turns that are calm to their end are turns without the watch. -/
theorem after_mirrors {job : Job ρ} {checkpoint : Checkpoint} {source : Source σ} {turns : Nat}
    {p q : Progress σ (ρ × Bool)}
    (h : Iteration.after (turn job.watched checkpoint source) turns p = .inl q)
    (hcalm : q.runner.2 = true) : p.runner.2 = true ∧
      Iteration.after (turn job checkpoint source) turns p.unwatched = .inl q.unwatched := by
  induction turns generalizing p with
  | zero =>
    cases h
    exact ⟨hcalm, rfl⟩
  | succ turns ih =>
    have hmirrors := turn_mirrors job checkpoint source p
    cases hturn : turn job.watched checkpoint source p with
    | inl r =>
      rw [Iteration.after_of_inl hturn] at h
      obtain ⟨hr, hrest⟩ := ih h
      rw [hturn] at hmirrors
      obtain ⟨hp, hplain⟩ := hmirrors hr
      have hstep : turn job checkpoint source p.unwatched = .inl r.unwatched := hplain
      exact ⟨hp, (Iteration.after_of_inl hstep turns).trans hrest⟩
    | inr s =>
      rw [Iteration.after_of_inr hturn] at h
      cases h

end Loop

/-! ### Whole runs -/

/-- Where a watched run begins, with nothing noted. -/
def Start.watched (start : Start σ ρ) : Start σ (ρ × Bool) :=
  ⟨start.context, start.source, start.runner, true⟩

def Outcome.unwatched (o : Outcome σ (ρ × Bool)) : Outcome σ ρ where
  result := o.result
  report := o.report
  context := o.context
  source := o.source
  runner := o.runner.1
  trace := o.trace
  counted := o.counted

/-- The run comes to an end, and its observer does not fail in it. -/
def Job.Undisturbed (job : Job ρ) (service : Service σ) (start : Start σ ρ) : Prop :=
  ∃ ends : job.watched.Ends service start.watched,
    (execute job.watched service start.watched ends).runner.2 = true

theorem complete_unwatched (s : Stop σ (ρ × Bool)) :
    (complete s).progress.runner = s.progress.runner ∧
      complete s.unwatched = (complete s).unwatched := by
  obtain ⟨p, _ | f⟩ := s <;> exact ⟨rfl, rfl⟩

theorem close_unwatched (source : Source σ) (s : Stop σ (ρ × Bool)) :
    (close source s).progress.runner = s.progress.runner ∧
      close source s.unwatched = (close source s).unwatched := by
  unfold close
  cases source.close? with
  | none => exact ⟨rfl, rfl⟩
  | some act =>
    simp only [Progress.add, Stop.unwatched, Progress.unwatched]
    rcases act ⟨s.progress.context, s.progress.source⟩ with ⟨_ | _, e⟩ <;> exact ⟨rfl, rfl⟩

variable {job : Job ρ} {service : Service σ} {start : Start σ ρ}

theorem Job.opening_unwatched {p q : Progress σ (ρ × Bool)}
    {opened : Except Fault (Option (Source σ))} (h : job.watched.opening service p = (opened, q)) :
    p.runner = q.runner ∧ job.opening service p.unwatched = (opened, q.unwatched) := by
  simp only [Job.opening, Prod.mk.injEq] at h
  obtain ⟨rfl, rfl⟩ := h
  exact ⟨rfl, rfl⟩

theorem conduct_mirrors {checkpoint : Checkpoint} {p : Progress σ (ρ × Bool)}
    (ends : job.watched.LoopEnds service checkpoint p)
    (hcalm : (conduct job.watched service checkpoint p ends).progress.runner.2 = true) :
    p.runner.2 = true ∧ ∃ ends' : job.LoopEnds service checkpoint p.unwatched,
      conduct job service checkpoint p.unwatched ends' =
        (conduct job.watched service checkpoint p ends).unwatched := by
  rcases hopen : job.watched.opening service p with ⟨opened, q⟩
  obtain ⟨hrunner, hopen'⟩ := Job.opening_unwatched hopen
  have refused : ∀ f, Job.refusal? opened = some f → p.runner.2 = true ∧
      ∃ ends' : job.LoopEnds service checkpoint p.unwatched,
        conduct job service checkpoint p.unwatched ends' =
          (conduct job.watched service checkpoint p ends).unwatched := by
    intro f hrefused
    have hends : job.LoopEnds service checkpoint p.unwatched := by
      intro source r h
      cases hopen'.symm.trans h
      cases hrefused
    have hplain : Job.refusal? (job.opening service p.unwatched).1 = some f := by rwa [hopen']
    have hwatched : Job.refusal? (job.watched.opening service p).1 = some f := by rwa [hopen]
    rw [conduct_of_refused hwatched, (complete_unwatched _).1, hopen] at hcalm
    refine ⟨hrunner ▸ hcalm, hends, ?_⟩
    rw [conduct_of_refused hplain, conduct_of_refused hwatched, hopen, hopen',
      ← (complete_unwatched _).2]
    rfl
  match opened with
  | .error f => exact refused f rfl
  | .ok none => exact refused _ rfl
  | .ok (some source) =>
    rw [conduct_of_opened hopen, (close_unwatched _ _).1, (complete_unwatched _).1] at hcalm
    obtain ⟨hq, ends', hrun⟩ := Loop.run_mirrors _ hcalm
    have hends : job.LoopEnds service checkpoint p.unwatched := by
      intro other r h
      cases hopen'.symm.trans h
      exact ends'
    refine ⟨hrunner ▸ hq, hends, ?_⟩
    rw [conduct_of_opened hopen', conduct_of_opened hopen, hrun, (complete_unwatched _).2,
      (close_unwatched _ _).2]

theorem settle_mirrors (job : Job ρ) {summary : Summary} {r : ρ × Bool}
    (hcalm : (settle job.watched summary r).2.2 = true) :
    r.2 = true ∧ settle job summary r.1 =
      ((settle job.watched summary r).1, (settle job.watched summary r).2.1) := by
  rcases hlog : job.observer.log (.finished summary) r.1 with ⟨_ | _, s⟩
  · simp [settle, Job.watched, Observer.watched, hlog, Except.isOk, Except.toBool] at hcalm
  · rcases hfinalize : job.observer.finalize summary s with ⟨_ | _, t⟩
    · simp [settle, Job.watched, Observer.watched, hlog, hfinalize, Except.isOk,
        Except.toBool] at hcalm
    · simp only [settle, Job.watched, Observer.watched, hlog, hfinalize, Except.isOk,
        Except.toBool, Bool.and_true] at hcalm ⊢
      exact ⟨hcalm, trivial⟩

theorem conclude_mirrors {checkpoint : Checkpoint} {s : Stop σ (ρ × Bool)}
    (hcalm : (conclude job.watched checkpoint s).runner.2 = true) :
    s.progress.runner.2 = true ∧
      conclude job checkpoint s.unwatched = (conclude job.watched checkpoint s).unwatched := by
  obtain ⟨hs, hsettle⟩ := settle_mirrors job hcalm
  have hnow : job.watched.now = job.now := rfl
  refine ⟨hs, ?_⟩
  simp only [conclude, Stop.unwatched, Progress.unwatched, Outcome.unwatched, hnow] at hsettle ⊢
  simp only [hsettle]

/-- A run in which the observer does not fail has been logged, and is over where the watched one is, with
nothing noted until the end. -/
theorem Job.Undisturbed.conducted (h : job.Undisturbed service start) :
    ∃ (ends' : job.watched.Ends service start.watched) (s : Stop σ (ρ × Bool)) (p : Progress σ ρ)
      (ends : job.LoopEnds service start.context.snapshot p), job.begin start = .inl p ∧
      execute job.watched service start.watched ends' =
        conclude job.watched start.context.snapshot s ∧
      conduct job service start.context.snapshot p ends = s.unwatched ∧
      (conclude job.watched start.context.snapshot s).runner.2 = true := by
  obtain ⟨ends', hcalm⟩ := h
  have hbegin : job.watched.begin start.watched = .inl (job.watched.begun start.watched) :=
    Job.begin_of_quiet job.observer.watched_quiet _
  have hexecute := execute_of_begun hbegin ends'
  rw [hexecute] at hcalm
  obtain ⟨hconduct, -⟩ := conclude_mirrors hcalm
  obtain ⟨hfirst, ends, hplain⟩ := conduct_mirrors _ hconduct
  have hmirrors := Loop.log_mirrors job (job.watched.blank start.watched) job.opener
  have hlog : Loop.log job.watched (job.watched.blank start.watched) job.opener =
    .inl (job.watched.begun start.watched) := hbegin
  rw [hlog] at hmirrors
  obtain ⟨-, hbegun⟩ := hmirrors hfirst
  exact ⟨ends', _, _, ends, hbegun, hexecute, hplain, hcalm⟩

theorem Job.Undisturbed.ends (h : job.Undisturbed service start) : job.Ends service start := by
  obtain ⟨-, -, p, hends, hbegin, -⟩ := h.conducted
  intro q hq
  cases hbegin.symm.trans hq
  exact hends

/-- It is the watched run, whose observer never fails. -/
theorem Job.Undisturbed.execute_eq (h : job.Undisturbed service start) :
    ∃ ends : job.watched.Ends service start.watched, execute job service start h.ends =
      (execute job.watched service start.watched ends).unwatched := by
  obtain ⟨ends', s, p, _, hbegin, hexecute, hplain, hcalm⟩ := h.conducted
  obtain ⟨-, hconclude⟩ := conclude_mirrors hcalm
  exact ⟨ends', by rw [execute_of_begun hbegin, hplain, hconclude, hexecute]⟩

/-- Nothing fails when it is settled. -/
theorem Job.Undisturbed.settle_eq (h : job.Undisturbed service start) {p : Progress σ ρ}
    (hbegin : job.begin start = .inl p) :
    (settle job (execute job service start h.ends).report.summary
      (conduct job service start.context.snapshot p (h.ends p hbegin)).progress.runner).1 = none := by
  obtain ⟨-, s, q, ends, hbegin', -, hplain, hcalm⟩ := h.conducted
  cases hbegin.symm.trans hbegin'
  obtain ⟨-, hsettle⟩ := settle_mirrors job hcalm
  rw [execute_of_begun hbegin, hplain]
  exact congrArg Prod.fst hsettle

/-- Its end alone tells its result. -/
theorem Job.Undisturbed.result_eq (h : job.Undisturbed service start) {p : Progress σ ρ}
    (hbegin : job.begin start = .inl p) : (execute job service start h.ends).result =
      (conduct job service start.context.snapshot p (h.ends p hbegin)).fault?.elim
        (.ok (execute job service start h.ends).report) .error := by
  have hnone := h.settle_eq hbegin
  rw [execute_of_begun hbegin] at hnone ⊢
  simp only [conclude] at hnone ⊢
  rw [hnone]
  rfl

/-- Where the course of the watched run comes to its last turn, so does the run. -/
theorem Job.Undisturbed.reaches (h : job.Undisturbed service start) {source : Source σ}
    {s : Surroundings σ} (hasked : job.asked service start = (.ok (some source), s))
    (c : RunCourse job.watched start.watched source s) : job.Reaches service start c.calls.length := by
  obtain ⟨-, -, p, -, hbegin, -⟩ := h.conducted
  obtain ⟨ends, hcalm⟩ := h
  have hquiet : job.watched.observer.Quiet := job.observer.watched_quiet
  have hasked' : job.watched.asked service start.watched = (.ok (some source), s) := hasked
  have hbegin' : job.watched.begin start.watched = .inl (job.watched.begun start.watched) :=
    Job.begin_of_quiet hquiet _
  obtain ⟨hafter, r, hstop⟩ := c.turns_eq hquiet
  rw [execute_of_begun hbegin', conduct_of_after hasked' hafter hstop] at hcalm
  obtain ⟨hclosed, -⟩ := conclude_mirrors hcalm
  rw [(close_unwatched _ _).1, (complete_unwatched _).1] at hclosed
  have hlast := Loop.turn_mirrors job start.watched.context.snapshot source c.passed
  rw [hstop] at hlast
  obtain ⟨-, hplain⟩ := Loop.after_mirrors hafter (hlast hclosed).1
  obtain ⟨-, rfl⟩ := Job.begin_eq_inl hbegin
  exact ⟨_, source, _, _, hbegin, Job.opening_of_asked hasked, hplain⟩

/-- It is refused its sequence, or goes a course. -/
theorem Job.Undisturbed.refused_or_course (h : job.Undisturbed service start) :
    (∃ f, Job.refusal? (job.asked service start).1 = some f ∧
      (execute job service start h.ends).result = .error f ∧
      (execute job service start h.ends).report = job.refusedReport ∧
      (execute job service start h.ends).trace =
        [.logged job.opener, .logged (.finished job.refusedReport.summary)]) ∨
    ∃ source s, job.asked service start = (.ok (some source), s) ∧
      ∃ c : RunCourse job.watched start.watched source s, job.Reaches service start c.calls.length ∧
        (execute job service start h.ends).result = c.fault?.elim (.ok c.report) .error ∧
        (execute job service start h.ends).report = c.report ∧
        (execute job service start h.ends).trace = c.trace := by
  obtain ⟨ends, hexecute⟩ := h.execute_eq
  have hquiet : job.watched.observer.Quiet := job.observer.watched_quiet
  rw [hexecute]
  rcases job.refused_or_opened service start with ⟨f, hrefused⟩ | ⟨source, s, hasked⟩
  · have hrefused' : Job.refusal? (job.watched.asked service start.watched).1 = some f := hrefused
    exact .inl ⟨f, hrefused, execute_of_refused hquiet hrefused' ends⟩
  · have hasked' : job.watched.asked service start.watched = (.ok (some source), s) := hasked
    obtain ⟨c⟩ := exists_runCourse hquiet hasked' ends
    exact .inr ⟨source, s, hasked, c, h.reaches hasked c, c.execute_eq hquiet hasked' ends⟩

/-! ### Runs that are not disturbed -/

/-- The observer does not fail while this holds of the state of the action, and no part of a run changes
that. -/
structure Job.QuietWhile (job : Job ρ) (holds : ρ → Prop) : Prop where
  logs : ∀ e r, holds r → (job.observer.log e r).1 = .ok () ∧ holds (job.heard e r)
  finalizes : ∀ summary r, holds r → (job.observer.finalize summary r).1 = .ok ()
  acts : ∀ text context r, holds r → holds (job.runner.invoke text ⟨context, r⟩).2.state

theorem Job.quietWhile_of_quiet (hquiet : job.observer.Quiet) : job.QuietWhile fun _ => True where
  logs e r _ := ⟨hquiet.1 e r, trivial⟩
  finalizes summary r _ := hquiet.2 summary r
  acts _ _ _ _ := trivial

/-- The parts of such a run keep the note empty. -/
theorem Job.QuietWhile.watched_keeps {holds : ρ → Prop} (hquiet : job.QuietWhile holds) :
    job.watched.Keeps fun _ r => r.2 = true ∧ holds r.1 where
  told _ _ h := h
  logged {_ r} e h := by
    obtain ⟨hlog, hheard⟩ := hquiet.logs e r.1 h.2
    refine ⟨?_, hheard⟩
    simp [Job.heard, Job.watched, Observer.watched, h.1, hlog, Except.isOk, Except.toBool]
  acted text context h := ⟨h.1, hquiet.acts text context _ h.2⟩

theorem Job.undisturbed_of_quietWhile {holds : ρ → Prop} (hquiet : job.QuietWhile holds)
    (hstart : holds start.runner) (ends : job.watched.Ends service start.watched) :
    job.Undisturbed service start := by
  have hkeeps := hquiet.watched_keeps
  have hbegin : job.watched.begin start.watched = .inl (job.watched.begun start.watched) :=
    Job.begin_of_quiet job.observer.watched_quiet _
  refine ⟨ends, ?_⟩
  rw [execute_of_begun hbegin]
  have hbegun := @hkeeps.logged [] start.watched.runner job.opener ⟨rfl, hstart⟩
  have hconduct := conduct_holds hkeeps (ends _ hbegin) hbegun
  revert hconduct
  generalize conduct job.watched service _ _ _ = s
  rintro ⟨hnote, hs⟩
  have hsettled : ∀ summary, (settle job.watched summary s.progress.runner).2.2 = true := by
    intro summary
    obtain ⟨hlog, hheard⟩ := hquiet.logs (.finished summary) s.progress.runner.1 hs
    have hfinalize := hquiet.finalizes summary _ hheard
    rw [Job.heard] at hfinalize
    simp [settle, Job.watched, Observer.watched, hnote, hlog, hfinalize, Except.isOk, Except.toBool]
  exact hsettled _

theorem Job.undisturbed_of_quiet (hquiet : job.observer.Quiet)
    (ends : job.watched.Ends service start.watched) : job.Undisturbed service start :=
  Job.undisturbed_of_quietWhile (Job.quietWhile_of_quiet hquiet) trivial ends

/-- A run that has been through its turns and has been concluded with nothing noted is not disturbed. -/
theorem Job.undisturbed_of_after {source : Source σ} {s : Surroundings σ} {turns : Nat}
    {p : Progress σ (ρ × Bool)} {last : Stop σ (ρ × Bool)}
    (hasked : job.asked service start = (.ok (some source), s))
    (hafter : Iteration.after (Loop.turn job.watched start.context.snapshot source) turns
      (job.watched.opened start.watched s) = .inl p)
    (hstop : Loop.turn job.watched start.context.snapshot source p = .inr last)
    (hcalm : (conclude job.watched start.context.snapshot
      (close source (complete last))).runner.2 = true) : job.Undisturbed service start := by
  have hasked' : job.watched.asked service start.watched = (.ok (some source), s) := hasked
  have hbegin : job.watched.begin start.watched = .inl (job.watched.begun start.watched) :=
    Job.begin_of_quiet job.observer.watched_quiet _
  have ends := Job.ends_of_after hbegin hasked' hafter hstop
  refine ⟨ends, ?_⟩
  rw [execute_of_begun hbegin, conduct_of_after hasked' hafter hstop]
  exact hcalm

end Foreach.Batch
