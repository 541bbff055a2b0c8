import Foreach.Batch.Ending
import Foreach.Proofs.Batch.Run

/-!
How far a run gets.

Turns that have all gone on are a stretch, and the observer has taken the events of its deeds. This does not
suppose that the observer never fails: it follows from their having gone on.
-/

namespace Foreach.Batch

variable {σ ρ : Type}

namespace Loop

variable {job : Job ρ} {checkpoint : Checkpoint} {source : Source σ} {p q : Progress σ ρ}

theorem log_eq_inl {e : Entry} (h : log job p e = .inl q) :
    (job.observer.log e p.runner).1 = .ok () ∧
      q = { p with runner := job.heard e p.runner }.add [.logged e] := by
  unfold log at h
  dsimp only at h
  split at h
  next hlog =>
    cases h
    exact ⟨hlog, rfl⟩
  next => cases h

/-- If the invocation for an item goes on, then with a deed whose events were taken. -/
theorem invoke_eq_inl {text : String} {done : Nat}
    (hprocessed : p.report.processed = (done + 1 : Nat)) (h : invoke job p text = .inl q) :
    job.Hears done (text, p.context) p.runner ∧
      (job.deed done (text, p.context) p.runner).IsIsolated := by
  obtain ⟨r, hstarted, hrest⟩ := andThen_eq_inl h
  obtain ⟨hlog, rfl⟩ := log_eq_inl hstarted
  rw [hprocessed] at hlog
  have hperform : job.runner.invoke text
      ⟨p.context, job.heard (.itemStarted (done + 1 : Nat) text) p.runner⟩ =
    job.perform (done + 1 : Nat) (text, p.context) p.runner := rfl
  simp only [Progress.add, hprocessed, hperform] at hrest
  unfold Job.Hears Job.deed
  generalize job.perform (done + 1 : Nat) (text, p.context) p.runner = performed at hrest ⊢
  obtain ⟨f | result, u⟩ := performed
  · dsimp only at hrest
    split at hrest
    next hordinary =>
      refine ⟨⟨hlog, (log_eq_inl hrest).1⟩, fun g hg => ?_⟩
      cases hg
      exact hordinary
    next => cases hrest
  · refine ⟨⟨hlog, (log_eq_inl hrest).1⟩, fun g hg => ?_⟩
    cases hg

/-- If a turn goes on, then with a deed whose events were taken. -/
theorem turn_eq_inl (hcount : p.report.processed = p.checks)
    (h : turn job checkpoint source p = .inl q) : job.cancels p.checks = .ok false ∧
    ∃ item after text, source.pull ⟨p.context, p.source⟩ = (.ok (some item), after) ∧
      item.render job.template = .ok text ∧ job.Hears p.checks (text, after.context) p.runner ∧
      (job.deed p.checks (text, after.context) p.runner).IsIsolated := by
  unfold turn at h
  dsimp only at h
  split at h
  next => cases h
  next => cases h
  next hcancel =>
    unfold advance at h
    dsimp only [Progress.add] at h
    split at h
    next => cases h
    next => cases h
    next item after hpull =>
      obtain ⟨r, hprocess, rfl⟩ := restored_eq_inl h
      cases hrender : item.render job.template with
      | error f =>
        rw [process_of_unrendered hrender] at hprocess
        cases hprocess
      | ok text =>
        rw [process_of_render hrender] at hprocess
        have hprocessed : p.report.processed + 1 = (p.checks + 1 : Nat) := by simp [hcount]
        obtain ⟨hhears, hisolated⟩ := invoke_eq_inl hprocessed hprocess
        exact ⟨hcancel, item, after, text, hpull, hrender, hhears, hisolated⟩

end Loop

/-- Turns that have gone on are a stretch, and they have led to its end. -/
theorem Stretch.of_after {job : Job ρ} {checkpoint : Checkpoint} {source : Source σ}
    {p q : Progress σ ρ} {turns : Nat} (hcount : p.report.processed = p.checks)
    (h : Iteration.after (Loop.turn job checkpoint source) turns p = .inl q) :
    ∃ stretch : Stretch job source (.restore checkpoint) p.checks ⟨p.context, p.source⟩ p.runner,
      stretch.calls.length = turns ∧ job.HearsAll p.checks stretch.calls p.runner ∧
        q = p.past job (.restore checkpoint) stretch.calls stretch.reached := by
  induction turns generalizing p with
  | zero =>
    cases h
    exact ⟨.empty, rfl, trivial, (Progress.past_nil _ job (.restore checkpoint)).symm⟩
  | succ turns ih =>
    cases hturn : Loop.turn job checkpoint source p with
    | inr s =>
      rw [Iteration.after_of_inr hturn] at h
      cases h
    | inl r =>
      rw [Iteration.after_of_inl hturn] at h
      obtain ⟨hcancel, item, after, text, hpull, hrender, hhears, hisolated⟩ :=
        Loop.turn_eq_inl hcount hturn
      have hdone := Loop.turn_of_deed checkpoint hcount hcancel hpull hrender hhears hisolated
      cases hturn.symm.trans hdone
      obtain ⟨stretch, hlength, hrest, rfl⟩ :=
        ih (by simp [Progress.past, Report.after, Job.deeds, hcount]) h
      refine ⟨stretch.cons hcancel hpull hrender hisolated, congrArg (· + 1) hlength,
        ⟨hhears, hrest⟩, ?_⟩
      exact p.past_cons job (.restore checkpoint) _ _ _ _

variable {job : Job ρ} {service : Service σ} {start : Start σ ρ}

/-- The run gets to the check with this number, counted from zero. -/
def Job.Reaches (job : Job ρ) (service : Service σ) (start : Start σ ρ) (check : Nat) : Prop :=
  ∃ p source q r, job.begin start = .inl p ∧ job.opening service p = (.ok (some source), q) ∧
    Iteration.after (Loop.turn job start.context.snapshot source) check q = .inl r

theorem Job.begin_eq_inl {p : Progress σ ρ} (h : job.begin start = .inl p) :
    (job.observer.log job.opener start.runner).1 = .ok () ∧ p = job.begun start :=
  Loop.log_eq_inl h

/-- A run that gets to a check has been through a stretch. -/
theorem Job.Reaches.exists_stretch {check : Nat} (h : job.Reaches service start check) :
    (job.observer.log job.opener start.runner).1 = .ok () ∧
    ∃ source s, job.asked service start = (.ok (some source), s) ∧
      ∃ stretch : Stretch job source start.context 0 s (job.firstState start),
        stretch.calls.length = check ∧ job.HearsAll 0 stretch.calls (job.firstState start) ∧
        Iteration.after (Loop.turn job start.context.snapshot source) check (job.opened start s) =
          .inl ((job.opened start s).past job start.context stretch.calls stretch.reached) := by
  obtain ⟨p, source, q, r, hbegin, hopen, hafter⟩ := h
  obtain ⟨hlog, rfl⟩ := Job.begin_eq_inl hbegin
  rw [Job.opening_begun, Prod.mk.injEq] at hopen
  obtain ⟨hasked, rfl⟩ := hopen
  obtain ⟨stretch, hlength, hhears, rfl⟩ := Stretch.of_after rfl hafter
  exact ⟨hlog, source, _, Prod.ext hasked rfl, stretch, hlength, hhears, hafter⟩

end Foreach.Batch
