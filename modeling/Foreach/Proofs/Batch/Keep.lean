import Foreach.Proofs.Batch.View

/-!
What every part of a run keeps.

Something about the events so far and the state of the action is kept by a run if it is kept by each of the
three things that happen in one: an event that is not logged, an event that is, and an invocation. The
observer may fail or not.
-/

namespace Foreach.Batch

variable {σ ρ : Type}

/-- Something that holds of what has happened and of the state of the action, and goes on to hold
whatever part of a run comes next. -/
structure Job.Keeps (job : Job ρ) (holds : List Event → ρ → Prop) : Prop where
  told : ∀ {trace r} (e : Event), e.entry? = none → holds trace r → holds (trace ++ [e]) r
  logged : ∀ {trace r} (e : Entry), holds trace r → holds (trace ++ [.logged e]) (job.heard e r)
  acted : ∀ {trace r} (text : String) (context : Context), holds trace r →
    holds trace (job.runner.invoke text ⟨context, r⟩).2.state

namespace Loop

/-- It holds at the end of a turn. -/
def Holds (holds : List Event → ρ → Prop) : Turn σ ρ → Prop :=
  Sum.elim (fun p => holds p.trace p.runner) fun s => holds s.progress.trace s.progress.runner

variable {job : Job ρ} {holds : List Event → ρ → Prop} (hkeeps : job.Keeps holds)

include hkeeps

theorem log_holds {p : Progress σ ρ} (e : Entry) (hp : holds p.trace p.runner) :
    Holds holds (log job p e) := by
  unfold log
  dsimp only
  split <;> exact hkeeps.logged e hp

theorem invoke_holds {p : Progress σ ρ} (text : String) (hp : holds p.trace p.runner) :
    Holds holds (invoke job p text) := by
  unfold invoke
  have hlog := log_holds hkeeps (.itemStarted p.report.processed text) hp
  dsimp only
  cases hstarted : log job p (.itemStarted p.report.processed text) with
  | inr s =>
    rw [hstarted] at hlog
    exact hlog
  | inl q =>
    rw [hstarted] at hlog
    have hinvoked := hkeeps.told (.invoked text q.context) rfl hlog
    have hacted := hkeeps.acted text q.context hinvoked
    simp only [andThen, Progress.add]
    generalize job.runner.invoke text ⟨q.context, q.runner⟩ = answered at hacted ⊢
    obtain ⟨f | result, s⟩ := answered
    · dsimp only
      split
      · exact log_holds hkeeps _ (hkeeps.told (.warned _) rfl hacted)
      · exact hacted
    · exact log_holds hkeeps _ hacted

theorem process_holds {p : Progress σ ρ} (item : Item) (hp : holds p.trace p.runner) :
    Holds holds (process job p item) := by
  have htold := hkeeps.told (.told s!"Processing item {p.report.processed}...")
    rfl hp
  unfold process
  dsimp only
  split
  · exact htold
  · split
    · exact htold
    · exact invoke_holds hkeeps _ htold

theorem turn_holds (checkpoint : Checkpoint) (source : Source σ) {p : Progress σ ρ}
    (hp : holds p.trace p.runner) : Holds holds (turn job checkpoint source p) := by
  unfold turn
  dsimp only
  split
  · exact hp
  · exact hkeeps.told (.told _) rfl hp
  · have hpulled := hkeeps.told (.pulled p.context) rfl hp
    unfold advance
    dsimp only
    split
    · exact hpulled
    · exact hpulled
    · next item s _ =>
      generalize hprocess : process job _ item = t
      have hitem : Holds holds t := hprocess ▸ process_holds hkeeps item hpulled
      cases t <;> exact hitem

theorem run_holds {checkpoint : Checkpoint} {source : Source σ} {p : Progress σ ρ}
    (ends : Iteration.Ends (turn job checkpoint source) p) (hp : holds p.trace p.runner) :
    holds (Iteration.run (turn job checkpoint source) p ends).progress.trace
      (Iteration.run (turn job checkpoint source) p ends).progress.runner := by
  have hends := ends
  induction hends with
  | intro p _ ih =>
    have hturn := turn_holds hkeeps checkpoint source hp
    cases hstep : turn job checkpoint source p with
    | inl q =>
      rw [hstep] at hturn
      rw [Iteration.run_of_inl ends hstep]
      exact ih q hstep (ends.next hstep) hturn
    | inr s =>
      rw [hstep] at hturn
      rw [Iteration.run_of_inr ends hstep]
      exact hturn

end Loop

theorem complete_holds {job : Job ρ} {holds : List Event → ρ → Prop} (hkeeps : job.Keeps holds)
    {s : Stop σ ρ} (hs : holds s.progress.trace s.progress.runner) :
    holds (complete s).progress.trace (complete s).progress.runner := by
  unfold complete
  split
  · exact hkeeps.told (.told _) rfl hs
  · exact hs

theorem close_holds {job : Job ρ} {holds : List Event → ρ → Prop} (hkeeps : job.Keeps holds)
    (source : Source σ) {s : Stop σ ρ} (hs : holds s.progress.trace s.progress.runner) :
    holds (close source s).progress.trace (close source s).progress.runner := by
  unfold close
  split
  · exact hs
  · dsimp only
    split <;> exact hkeeps.told .closed rfl hs

/-- What every part of a run keeps holds when the run is to be settled. -/
theorem conduct_holds {job : Job ρ} {holds : List Event → ρ → Prop} (hkeeps : job.Keeps holds)
    {service : Service σ} {checkpoint : Checkpoint} {p : Progress σ ρ}
    (ends : job.LoopEnds service checkpoint p) (hp : holds p.trace p.runner) :
    holds (conduct job service checkpoint p ends).progress.trace
      (conduct job service checkpoint p ends).progress.runner := by
  have hopening : ∀ {opened q}, job.opening service p = (opened, q) → holds q.trace q.runner := by
    intro opened q hopen
    cases hopen
    exact hp
  unfold conduct
  split
  · next hopen => exact complete_holds hkeeps (hopening hopen)
  · next hopen => exact complete_holds hkeeps (hopening hopen)
  · next hopen =>
    exact close_holds hkeeps _ (complete_holds hkeeps (Loop.run_holds hkeeps _ (hopening hopen)))

end Foreach.Batch
