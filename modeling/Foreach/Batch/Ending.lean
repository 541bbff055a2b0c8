import Foreach.Batch.Execute

/-!
Runs over finite sequences come to an end.

Within a turn only the pull moves the sequence, so each turn that goes on leaves fewer items to come.
-/

namespace Foreach.Batch

variable {σ ρ : Type}

namespace Loop

theorem log_source {job : Job ρ} {p q : Progress σ ρ} {e : Entry} (h : log job p e = .inl q) :
    q.source = p.source := by
  unfold log at h
  dsimp only at h
  split at h
  next => cases h; rfl
  next => simp [abort] at h

theorem andThen_eq_inl {t : Turn σ ρ} {next : Progress σ ρ → Turn σ ρ} {q : Progress σ ρ}
    (h : andThen t next = .inl q) : ∃ p, t = .inl p ∧ next p = .inl q := by
  cases t with
  | inl p => exact ⟨p, rfl, h⟩
  | inr s => simp [andThen] at h

theorem invoke_source {job : Job ρ} {p q : Progress σ ρ} {text : String}
    (h : invoke job p text = .inl q) : q.source = p.source := by
  obtain ⟨r, hr, hq⟩ := andThen_eq_inl h
  have hsource := log_source hr
  dsimp only at hq
  split at hq
  next => exact (log_source hq).trans hsource
  next =>
    split at hq
    next => exact (log_source hq).trans hsource
    next => simp [abort] at hq

theorem process_source {job : Job ρ} {p q : Progress σ ρ} {item : Item}
    (h : process job p item = .inl q) : q.source = p.source := by
  unfold process at h
  dsimp only at h
  split at h
  next => simp [abort] at h
  next =>
    split at h
    next => simp [abort] at h
    next =>
      have hsource := invoke_source h
      exact hsource

theorem restored_eq_inl {checkpoint : Checkpoint} {t : Turn σ ρ} {q : Progress σ ρ}
    (h : restored checkpoint t = .inl q) :
    ∃ p, t = .inl p ∧ q = { p with context := .restore checkpoint } := by
  cases t with
  | inl p => exact ⟨p, rfl, (Sum.inl.inj h).symm⟩
  | inr s => simp [restored] at h

/-- A turn goes on only after a pull that gave an item, and leaves the sequence as the pull did. -/
theorem turn_pull {job : Job ρ} {checkpoint : Checkpoint} {source : Source σ} {p q : Progress σ ρ}
    (h : turn job checkpoint source p = .inl q) :
    ∃ item after, source.pull ⟨p.context, p.source⟩ = (.ok (some item), after) ∧
      q.source = after.state := by
  unfold turn at h
  dsimp only at h
  split at h
  next => simp [abort] at h
  next => simp [stop] at h
  next =>
    unfold advance at h
    dsimp only [Progress.add] at h
    split at h
    next => simp [stop] at h
    next => simp [abort] at h
    next item after hpull =>
      obtain ⟨r, hr, rfl⟩ := restored_eq_inl h
      exact ⟨item, after, hpull, process_source hr⟩

theorem ends_of_finite {source : Source σ} (h : source.Finite) (job : Job ρ)
    (checkpoint : Checkpoint) (p : Progress σ ρ) :
    Iteration.Ends (turn job checkpoint source) p := by
  obtain ⟨left, hleft⟩ := h
  refine Iteration.ends_of_size (fun p => left p.source) (fun p q hturn => ?_) p
  obtain ⟨item, after, hpull, hsource⟩ := turn_pull hturn
  simpa [hsource] using hleft _ _ _ hpull

end Loop

/-- A sequence that a service opens was opened by one of its providers. -/
theorem generate_eq_some {service : Service σ} {name : Key} {before after : Surroundings σ}
    {source : Source σ} (h : service.generate name before = (.ok (some source), after)) :
    ∃ entry ∈ service.registry.entries, ∃ spec,
      entry.2.generate spec before = (.ok (some source), after) := by
  unfold Service.generate at h
  cases hresolve : service.resolve name with
  | error f => simp [hresolve, Activity.fail] at h
  | ok found =>
    obtain ⟨d, provider⟩ := found
    have hget := (Service.resolve_eq_ok hresolve).2
    exact ⟨(d.type, provider), Registry.mem_of_get? hget, d.spec, by simpa [hresolve] using h⟩

/-- A run over providers that open finite sequences only comes to an end. -/
theorem Job.ends_of_finite {service : Service σ} (h : service.Finite) (job : Job ρ)
    (start : Start σ ρ) : job.Ends service start := by
  intro p _ source q hopen
  dsimp only [Job.opening] at hopen
  have hgen : service.generate (.text job.iterable) ⟨p.context, p.source⟩ =
      (.ok (some source), (service.generate (.text job.iterable) ⟨p.context, p.source⟩).2) :=
    Prod.ext (Prod.mk.inj hopen).1 rfl
  obtain ⟨entry, hentry, spec, hspec⟩ := generate_eq_some hgen
  exact Loop.ends_of_finite (h entry hentry _ _ _ _ hspec) job _ q

end Foreach.Batch
