import Foreach.Proofs.Batch.Outcome
import Foreach.Proofs.Template.Rendering

/-!
Runs that come to an item without a text.

An action that fails in an ordinary way is a failure of its item alone. An item without a text ends the run
instead: it is recorded neither as a result nor as a failure, and nothing after it is pulled. There is such
an item just if the template asks for a value in it that has no document.
-/

namespace Foreach

/-- Pulls that give items give each of them after those before it. -/
theorem Source.Gives.split {σ : Type} {source : Source σ} {base : Context} {s t : Surroundings σ}
    {before later : List Visit} {v : Visit} (h : source.Gives base s (before ++ v :: later) t) :
    ∃ reached after, source.Gives base s before reached ∧
      source.pull reached = (.ok (some v.item), ⟨v.seen, after⟩) := by
  induction before generalizing s with
  | nil =>
    cases h with
    | @cons _ after _ item _ hpull _ => exact ⟨s, after.state, .nil s, hpull⟩
  | cons first before ih =>
    cases h with
    | cons hpull hrest =>
      obtain ⟨reached, after, hgives, hlast⟩ := ih hrest
      exact ⟨reached, after, .cons hpull hgives, hlast⟩

namespace Batch

variable {σ ρ : Type} {job : Job ρ} {service : Service σ} {start : Start σ ρ} {visits : List Visit}

/-- Either all visits have texts, or there is a first one without. -/
theorem rendered_or_split (template : String) (visits : List Visit) :
    (∃ calls, Rendered template visits calls) ∨
      ∃ before v later calls f, visits = before ++ v :: later ∧ Rendered template before calls ∧
        v.item.render template = .error f := by
  induction visits with
  | nil => exact .inl ⟨[], .nil⟩
  | cons v visits ih =>
    cases hrender : v.item.render template with
    | error f => exact .inr ⟨[], v, visits, [], f, rfl, .nil, hrender⟩
    | ok text =>
      rcases ih with ⟨calls, hcalls⟩ | ⟨before, w, later, calls, f, rfl, hcalls, hw⟩
      · exact .inl ⟨(text, v.seen) :: calls, .cons ⟨hrender, rfl⟩ hcalls⟩
      · exact .inr ⟨v :: before, w, later, (text, v.seen) :: calls, f, rfl,
          .cons ⟨hrender, rfl⟩ hcalls, hw⟩

/-- The course of a run over an offer up to an item without a text. -/
theorem exists_runCourse_of_unrendered (start : Start σ ρ) {before later : List Visit} {v : Visit}
    {calls : List Call} {f : Fault}
    (hoffers : service.Offers job.iterable start.context start.source (before ++ v :: later))
    (hrenders : Rendered job.template before calls) (hunrendered : v.item.render job.template = .error f)
    (hgoesOn : ∀ check, job.cancels check = .ok false)
    (hisolated : ∀ d ∈ job.deeds 0 calls (job.firstState start), d.IsIsolated) :
    ∃ source s after, job.asked service start = (.ok (some source), s) ∧
      ∃ c : RunCourse job start source s, c.calls = calls ∧ c.finish = .unrendered f ∧
        c.left = ⟨v.seen, after⟩ := by
  obtain ⟨source, s, t, u, hasked, hgives, -, -⟩ := hoffers
  obtain ⟨reached, after, hbefore, hpull⟩ := hgives.split
  let stretch : Stretch job source start.context 0 s (job.firstState start) :=
    { visits := before, calls, reached, gives := hbefore, renders := hrenders
      goesOn := fun _ _ => hgoesOn _, isolated := hisolated }
  exact ⟨source, s, after, hasked,
    ⟨stretch, .unrendered f, ⟨v.seen, after⟩, .unrendered (hgoesOn _) hpull hunrendered⟩, rfl, rfl, rfl⟩

/-- What a run has done for the items that it got through. -/
structure Outcome.Through (o : Outcome σ ρ) (calls : List Call) (deeds : List Deed) : Prop where
  invocations : o.calls = calls
  results : o.report.results = Batch.results deeds
  /-- An action that failed is one failure of its item. -/
  failures : o.report.failures = Batch.failures 1 deeds

theorem RunCourse.through {source : Source σ} {s : Surroundings σ} (c : RunCourse job start source s)
    {o : Outcome σ ρ} (h : c.Settles o) (hfinish : c.finish.calls = []) :
    o.Through c.calls c.deeds where
  invocations := by rw [h.calls, hfinish, List.append_nil]
  results := h.results
  failures := h.failures

/-- A run that got to the end of its sequence. -/
structure Outcome.RunsAll (o : Outcome σ ρ) (calls : List Call) (deeds : List Deed) : Prop
    extends o.Through calls deeds where
  returned : o.result = .ok o.report
  processed : o.report.processed = calls.length

/-- A run that stopped at an item without a text; to close the sequence may have failed after that. The
item was met, but not recorded. -/
structure Outcome.BreaksDown (o : Outcome σ ρ) (calls : List Call) (deeds : List Deed) (f : Fault)
    (closing? : Option Fault) : Prop extends o.Through calls deeds where
  raised : o.result = .error (closing?.getD f)
  processed : o.report.processed = calls.length + 1
  aborted : o.report.aborted = true

theorem exists_runsAll {calls : List Call} (hquiet : job.observer.Quiet)
    (hoffers : service.Offers job.iterable start.context start.source visits)
    (hrenders : Rendered job.template visits calls) (hgoesOn : ∀ check, job.cancels check = .ok false)
    (hisolated : ∀ d ∈ job.deeds 0 calls (job.firstState start), d.IsIsolated) :
    ∃ ends, (execute job service start ends).RunsAll calls
      (job.deeds 0 calls (job.firstState start)) := by
  obtain ⟨source, s, hasked, c, -, rfl, hfinish, hclose⟩ :=
    exists_runCourse_of_offers start hoffers hrenders (fun check _ => hgoesOn check) hisolated
  have ends := c.ends hquiet hasked
  have hsettles := c.settles hquiet hasked ends
  exact ⟨ends, {
    toThrough := c.through hsettles (by rw [hfinish]; rfl)
    returned := hsettles.returned hclose (.inl hfinish)
    processed := by simp [hsettles.processed, hfinish, Finish.met, c.length_visits] }⟩

theorem exists_breaksDown {before later : List Visit} {v : Visit} {calls : List Call} {f : Fault}
    (hquiet : job.observer.Quiet)
    (hoffers : service.Offers job.iterable start.context start.source (before ++ v :: later))
    (hrenders : Rendered job.template before calls) (hunrendered : v.item.render job.template = .error f)
    (hgoesOn : ∀ check, job.cancels check = .ok false)
    (hisolated : ∀ d ∈ job.deeds 0 calls (job.firstState start), d.IsIsolated) :
    ∃ ends source s after, job.asked service start = (.ok (some source), s) ∧
      (execute job service start ends).BreaksDown calls
        (job.deeds 0 calls (job.firstState start)) f (source.closeFault? ⟨v.seen, after⟩) := by
  obtain ⟨source, s, after, hasked, c, rfl, hfinish, hleft⟩ :=
    exists_runCourse_of_unrendered start hoffers hrenders hunrendered hgoesOn hisolated
  have ends := c.ends hquiet hasked
  have hsettles := c.settles hquiet hasked ends
  obtain ⟨-, hreport, -⟩ := c.execute_eq hquiet hasked ends
  refine ⟨ends, source, s, after, hasked, {
    toThrough := c.through hsettles (by rw [hfinish]; rfl)
    raised := ?_
    processed := by simp [hsettles.processed, hfinish, Finish.met, c.length_visits]
    aborted := ?_ }⟩
  · rw [← hleft]
    cases hclose : source.closeFault? c.left with
    | none => exact hsettles.unrendered hclose f hfinish
    | some g => exact hsettles.closeFailed g hclose
  · simp [hreport, RunCourse.report, RunCourse.fault?, hfinish, Finish.fault?]

/-- A run that nothing cancels or stops hard goes through all items before the first one without a text. If
there is none, it returns and has run them all, failed actions or not. Otherwise it fails there: that item
is not recorded, and no later one is run. An item is without a text if some token of the template finds
a value in it that has no document. -/
theorem execute_until_unrendered {job : Job ρ} {service : Service σ} {start : Start σ ρ}
    {visits : List Visit} (hquiet : job.observer.Quiet) (hcancel : job.cancel = none)
    (hnever : job.runner.NeverStops)
    (hoffers : service.Offers job.iterable start.context start.source visits) :
    (∀ calls, Rendered job.template visits calls → ∃ ends,
      (execute job service start ends).RunsAll calls (job.deeds 0 calls (job.firstState start))) ∧
    (∀ before v later calls f, visits = before ++ v :: later → Rendered job.template before calls →
      v.item.render job.template = .error f →
        ∃ ends source s after, job.asked service start = (.ok (some source), s) ∧
          (execute job service start ends).BreaksDown calls
            (job.deeds 0 calls (job.firstState start)) f (source.closeFault? ⟨v.seen, after⟩)) ∧
    ((∃ calls, Rendered job.template visits calls) ∨
      ∃ before v later calls f, visits = before ++ v :: later ∧ Rendered job.template before calls ∧
        v.item.render job.template = .error f) ∧
    ∀ value vars f, (Item.entry value vars).render job.template = .error f ↔
      f = Template.unprintable ∧ ∃ body w, .token body ∈ Template.pieces job.template.toList ∧
        Path.lookup vars (Template.key body) = some w ∧ w.HoldsUnwritable := by
  have hgoesOn : ∀ check, job.cancels check = .ok false := fun check => by rw [Job.cancels, hcancel]
  refine ⟨fun calls hrenders => ?_, ?_, rendered_or_split _ _,
    fun value vars f => Template.interpolate_eq_error_iff⟩
  · exact exists_runsAll hquiet hoffers hrenders hgoesOn (Job.deeds_isolated hnever _ _ _)
  · rintro before v later calls f rfl hrenders hunrendered
    exact exists_breaksDown hquiet hoffers hrenders hunrendered hgoesOn
      (Job.deeds_isolated hnever _ _ _)

/-- Two items. A mapping in the first one has a tuple as a key. -/
def pairs : List Visit :=
  [⟨.entry .null (.record [("x", .map [(.tuple [.int 1], .int 2)])]), .empty⟩,
    ⟨.entry .null (.record [("x", .int 1)]), .empty⟩]

/-- A job that asks for that mapping. -/
def pairsJob : Job Unit where
  iterable := "pairs"
  template := "{x}"
  runner := .noop Unit
  observer := .idle
  cancel := none
  now := .int 0

def pairsStart : Start (List Visit) Unit := ⟨.empty, pairs, ()⟩

theorem pairsJob_neverStops : pairsJob.runner.NeverStops := by
  rintro text s f ⟨⟩

theorem pairs_offered :
    (Service.only "pairs" Visit.replayer).Offers pairsJob.iterable pairsStart.context pairsStart.source
      pairs :=
  Visit.offers_replay "pairs" .empty pairs

theorem execute_until_unrendered_pairs :
    ∃ ends source s after, pairsJob.asked (Service.only "pairs" Visit.replayer) pairsStart =
        (.ok (some source), s) ∧
      (execute pairsJob (Service.only "pairs" Visit.replayer) pairsStart ends).BreaksDown [] []
        Template.unprintable (source.closeFault? ⟨.empty, after⟩) := by
  obtain ⟨-, hbreaks, -⟩ :=
    execute_until_unrendered Observer.idle_quiet rfl pairsJob_neverStops pairs_offered
  exact hbreaks [] _ _ [] _ rfl .nil rfl

/-- So one item can stop a run. -/
theorem not_forall_items_processed :
    ¬ ∀ {σ ρ : Type} (job : Job ρ) (service : Service σ) (start : Start σ ρ) (visits : List Visit),
      job.observer.Quiet → job.cancel = none → job.runner.NeverStops →
      service.Offers job.iterable start.context start.source visits →
      (∀ v ∈ visits, ∃ value vars, v.item = .entry value vars) →
      ∃ ends r, (execute job service start ends).result = .ok r ∧ r.processed = visits.length := by
  intro h
  obtain ⟨_, r, hreturned, -⟩ := h pairsJob _ pairsStart pairs Observer.idle_quiet rfl pairsJob_neverStops
    pairs_offered (by simp [pairs])
  have hunrendered : pairs[0].item.render pairsJob.template = .error Template.unprintable := rfl
  obtain ⟨_, _, _, _, -, hbreaks⟩ := exists_breaksDown Observer.idle_quiet pairs_offered .nil
    hunrendered (fun _ => rfl) (Job.deeds_isolated pairsJob_neverStops _ _ _)
  cases hreturned.symm.trans hbreaks.raised

end Batch
end Foreach
