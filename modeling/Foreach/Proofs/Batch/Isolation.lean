import Foreach.Batch.Ending
import Foreach.Proofs.Batch.Replay
import Foreach.Proofs.Batch.View
import Foreach.Script.Runner

/-!
What an action does to the context, and where it fails, is not seen by the items after it.

Two runs with different actions go the same way: the course of one, with its visits and its calls, is a
course of the other. Only the deeds differ, and no turn looks at the deeds before it.
-/

namespace Foreach.Batch

variable {σ ρ₁ ρ₂ : Type}

/-- Two jobs that agree in all but the action, the observer and the clock. -/
structure Job.Alike (job₁ : Job ρ₁) (job₂ : Job ρ₂) : Prop where
  iterable : job₁.iterable = job₂.iterable
  template : job₁.template = job₂.template
  cancel : job₁.cancel = job₂.cancel

/-- Two traces show the same invocations and the same pulls, each in the same context, and all pulls but
the first took place in `base`, the first one in `opened`. -/
structure SameSights (opened base : Context) (trace₁ trace₂ : List Event) : Prop where
  calls : trace₁.filterMap Event.call? = trace₂.filterMap Event.call?
  pulls : trace₁.filterMap Event.pull? = trace₂.filterMap Event.pull?
  baseline : ∀ k seen, (trace₁.filterMap Event.pull?)[k]? = some seen →
    seen = if k = 0 then opened else base

theorem SameSights.of_views {opened base : Context} {trace₁ trace₂ : List Event} {calls : List Call}
    (others pulls : Nat) (hcalls₁ : trace₁.filterMap Event.call? = calls)
    (hcalls₂ : trace₂.filterMap Event.call? = calls)
    (hpulls₁ : trace₁.filterMap Event.pull? = (opened :: List.replicate others base).take pulls)
    (hpulls₂ : trace₂.filterMap Event.pull? = (opened :: List.replicate others base).take pulls) :
    SameSights opened base trace₁ trace₂ where
  calls := hcalls₁.trans hcalls₂.symm
  pulls := hpulls₁.trans hpulls₂.symm
  baseline k seen hseen := by
    rw [hpulls₁, List.getElem?_take, Option.ite_none_right_eq_some] at hseen
    obtain ⟨-, hseen⟩ := hseen
    cases k with
    | zero => exact (Option.some.inj hseen).symm
    | succ k =>
      rw [List.getElem?_cons_succ] at hseen
      exact List.eq_of_mem_replicate (List.mem_of_getElem? hseen)

/-! ### From one job to the other -/

namespace Job

namespace Alike

variable {job₁ : Job ρ₁} {job₂ : Job ρ₂}

theorem symm (halike : job₁.Alike job₂) : job₂.Alike job₁ :=
  ⟨halike.iterable.symm, halike.template.symm, halike.cancel.symm⟩

theorem cancels_eq (halike : job₁.Alike job₂) (check : Nat) :
    job₁.cancels check = job₂.cancels check := by
  simp only [cancels, halike.cancel]

theorem asked_eq (halike : job₁.Alike job₂) (service : Service σ) (context : Context) (state : σ)
    (r₁ : ρ₁) (r₂ : ρ₂) :
    job₁.asked service ⟨context, state, r₁⟩ = job₂.asked service ⟨context, state, r₂⟩ := by
  simp only [asked, halike.iterable]

end Alike
end Job

section

variable {job₁ : Job ρ₁} {job₂ : Job ρ₂} {source : Source σ} {base : Context} {done : Nat}
  {s : Surroundings σ} {r₁ : ρ₁} (halike : job₁.Alike job₂)

include halike

/-- A last turn of one job is one of the other, unless the action was stopped hard in it. -/
theorem Finishes.of_alike {finish : Finish} {t : Surroundings σ}
    (hnever₁ : job₁.runner.NeverStops) (h : Finishes job₁ source done s r₁ finish t) (r₂ : ρ₂) :
    Finishes job₂ source done s r₂ finish t := by
  cases h with
  | cancelled hcancel => exact .cancelled (halike.cancels_eq done ▸ hcancel)
  | unanswered hcancel => exact .unanswered (halike.cancels_eq done ▸ hcancel)
  | exhausted hcancel hpull => exact .exhausted (halike.cancels_eq done ▸ hcancel) hpull
  | failedPull hcancel hpull => exact .failedPull (halike.cancels_eq done ▸ hcancel) hpull
  | unrendered hcancel hpull hrender =>
    exact .unrendered (halike.cancels_eq done ▸ hcancel) hpull (halike.template ▸ hrender)
  | stopped _ _ _ hperform hhard =>
    have hordinary := hnever₁ _ _ _ (congrArg Prod.fst hperform)
    exact absurd hordinary (Bool.eq_false_iff.1 hhard)

/-- The same stretch for the other job. -/
def Stretch.ofAlike (stretch : Stretch job₁ source base done s r₁)
    (hnever₂ : job₂.runner.NeverStops) (r₂ : ρ₂) : Stretch job₂ source base done s r₂ where
  visits := stretch.visits
  calls := stretch.calls
  reached := stretch.reached
  gives := stretch.gives
  renders := halike.template ▸ stretch.renders
  goesOn k hk := halike.cancels_eq _ ▸ stretch.goesOn k hk
  isolated := Job.deeds_isolated hnever₂ _ _ _

/-- The same course for the other job. -/
def Course.ofAlike (c : Course job₁ source base done s r₁) (hnever₁ : job₁.runner.NeverStops)
    (hnever₂ : job₂.runner.NeverStops) (r₂ : ρ₂) : Course job₂ source base done s r₂ :=
  { c.toStretch.ofAlike halike hnever₂ r₂ with
    finish := c.finish
    left := c.left
    finishes := c.finishes.of_alike halike hnever₁ _ }

end

/-! ### Both runs -/

section

variable {job₁ : Job ρ₁} {job₂ : Job ρ₂} {service : Service σ} {context : Context} {state : σ}
  {r₁ : ρ₁} {r₂ : ρ₂}

/-- The course of a run, for the other job. -/
def RunCourse.ofAlike {source : Source σ} {s : Surroundings σ} (halike : job₁.Alike job₂)
    (c : RunCourse job₁ ⟨context, state, r₁⟩ source s) (hnever₁ : job₁.runner.NeverStops)
    (hnever₂ : job₂.runner.NeverStops) (r₂ : ρ₂) : RunCourse job₂ ⟨context, state, r₂⟩ source s :=
  Course.ofAlike halike c hnever₁ hnever₂ _

theorem Job.Ends.of_alike (halike : job₁.Alike job₂) (hquiet₁ : job₁.observer.Quiet)
    (hquiet₂ : job₂.observer.Quiet) (hnever₁ : job₁.runner.NeverStops)
    (hnever₂ : job₂.runner.NeverStops) (ends : job₁.Ends service ⟨context, state, r₁⟩) :
    job₂.Ends service ⟨context, state, r₂⟩ := by
  have hasked := halike.asked_eq service context state r₁ r₂
  rcases job₁.refused_or_opened service ⟨context, state, r₁⟩ with
    ⟨f, hrefused⟩ | ⟨source, s, hopened⟩
  · exact ends_of_refused hquiet₂ (hasked ▸ hrefused)
  · obtain ⟨c⟩ := exists_runCourse hquiet₁ hopened ends
    exact (c.ofAlike halike hnever₁ hnever₂ r₂).ends hquiet₂ (hasked ▸ hopened)

/-- What has happened after any number of turns looks the same in both runs. -/
theorem Job.Alike.sameSights_traceAfter (halike : job₁.Alike job₂) (hquiet₁ : job₁.observer.Quiet)
    (hquiet₂ : job₂.observer.Quiet) (hnever₁ : job₁.runner.NeverStops)
    (hnever₂ : job₂.runner.NeverStops) (turns : Nat) :
    SameSights (job₁.asked service ⟨context, state, r₁⟩).2.context context
      (job₁.traceAfter service ⟨context, state, r₁⟩ turns)
      (job₂.traceAfter service ⟨context, state, r₂⟩ turns) := by
  have hasked := halike.asked_eq service context state r₁ r₂
  rcases job₁.refused_or_opened service ⟨context, state, r₁⟩ with
    ⟨f, hrefused⟩ | ⟨source, s, hopened⟩
  · rw [traceAfter_of_refused hquiet₁ hrefused, traceAfter_of_refused hquiet₂ (hasked ▸ hrefused)]
    exact .of_views 0 0 rfl rfl rfl rfl
  · have hopened₂ := hasked ▸ hopened
    rw [hopened]
    rcases exists_stretch_or_course job₁ source context turns 0 s
      (job₁.firstState ⟨context, state, r₁⟩) with
      ⟨stretch, rfl⟩ | ⟨(c : RunCourse job₁ ⟨context, state, r₁⟩ source s), hlength⟩
    · have hother : job₂.traceAfter service ⟨context, state, r₂⟩ stretch.calls.length =
          job₂.history ⟨context, state, r₂⟩ s.context stretch.calls :=
        (stretch.ofAlike halike hnever₂ _).traceAfter_eq hquiet₂ hopened₂
      rw [Stretch.traceAfter_eq stretch hquiet₁ hopened, hother]
      exact .of_views _ _ (job₁.history_calls _ _ _) (job₂.history_calls _ _ _)
        (job₁.history_pulls _ _ _) (job₂.history_pulls _ _ _)
    · let other := c.ofAlike halike hnever₁ hnever₂ r₂
      rw [c.traceAfter_eq hquiet₁ hopened hlength, other.traceAfter_eq hquiet₂ hopened₂ hlength]
      exact .of_views _ _ c.loopTrace_calls other.loopTrace_calls c.loopTrace_pulls
        other.loopTrace_pulls

/-- What happens in the whole runs looks the same. -/
theorem Job.Alike.sameSights_execute (halike : job₁.Alike job₂) (hquiet₁ : job₁.observer.Quiet)
    (hquiet₂ : job₂.observer.Quiet) (hnever₁ : job₁.runner.NeverStops)
    (hnever₂ : job₂.runner.NeverStops) (ends₁ : job₁.Ends service ⟨context, state, r₁⟩)
    (ends₂ : job₂.Ends service ⟨context, state, r₂⟩) :
    SameSights (job₁.asked service ⟨context, state, r₁⟩).2.context context
      (execute job₁ service ⟨context, state, r₁⟩ ends₁).trace
      (execute job₂ service ⟨context, state, r₂⟩ ends₂).trace := by
  have hasked := halike.asked_eq service context state r₁ r₂
  rcases job₁.refused_or_opened service ⟨context, state, r₁⟩ with
    ⟨f, hrefused⟩ | ⟨source, s, hopened⟩
  · obtain ⟨-, -, htrace₁⟩ := execute_of_refused hquiet₁ hrefused ends₁
    obtain ⟨-, -, htrace₂⟩ := execute_of_refused hquiet₂ (hasked ▸ hrefused) ends₂
    rw [htrace₁, htrace₂]
    exact .of_views 0 0 rfl rfl rfl rfl
  · obtain ⟨c⟩ := exists_runCourse hquiet₁ hopened ends₁
    let other := c.ofAlike halike hnever₁ hnever₂ r₂
    obtain ⟨-, -, htrace₁⟩ := c.execute_eq hquiet₁ hopened ends₁
    obtain ⟨-, -, htrace₂⟩ := other.execute_eq hquiet₂ (hasked ▸ hopened) ends₂
    rw [hopened, htrace₁, htrace₂]
    exact .of_views _ _ c.trace_calls other.trace_calls c.trace_pulls other.trace_pulls

end

/-- No item sees what the action did at another one. Two runs whose actions change the context at will and
fail in ordinary ways wherever they like come to an end together, and make the same invocations and pulls:
the same texts, in the same contexts. This holds for the first turns of runs without an end too. An
observer that fails would end a run because of what the action did, and so none does here. -/
theorem execute_isolated (job₁ : Job ρ₁) (job₂ : Job ρ₂) (service : Service σ) (context : Context)
    (state : σ) (r₁ : ρ₁) (r₂ : ρ₂) (halike : job₁.Alike job₂)
    (hquiet₁ : job₁.observer.Quiet) (hquiet₂ : job₂.observer.Quiet)
    (hnever₁ : job₁.runner.NeverStops) (hnever₂ : job₂.runner.NeverStops) :
    (job₁.Ends service ⟨context, state, r₁⟩ ↔ job₂.Ends service ⟨context, state, r₂⟩) ∧
      (∀ turns, SameSights (job₁.asked service ⟨context, state, r₁⟩).2.context context
        (job₁.traceAfter service ⟨context, state, r₁⟩ turns)
        (job₂.traceAfter service ⟨context, state, r₂⟩ turns)) ∧
      ∀ (ends₁ : job₁.Ends service ⟨context, state, r₁⟩)
        (ends₂ : job₂.Ends service ⟨context, state, r₂⟩),
        SameSights (job₁.asked service ⟨context, state, r₁⟩).2.context context
          (execute job₁ service ⟨context, state, r₁⟩ ends₁).trace
          (execute job₂ service ⟨context, state, r₂⟩ ends₂).trace := by
  refine ⟨⟨?_, ?_⟩, ?_, ?_⟩
  · exact .of_alike halike hquiet₁ hquiet₂ hnever₁ hnever₂
  · exact .of_alike halike.symm hquiet₂ hquiet₁ hnever₂ hnever₁
  · exact halike.sameSights_traceAfter hquiet₁ hquiet₂ hnever₁ hnever₂
  · exact halike.sameSights_execute hquiet₁ hquiet₂ hnever₁ hnever₂

/-- A job with this scripted action. -/
def scriptedJob (a : Script.Acted) : Job Unit where
  iterable := "items"
  template := "go"
  runner := Script.runner Unit a
  observer := .idle
  cancel := none
  now := .int 0

/-- Two items, with something else in the context at each. -/
def twoVisits : List Visit :=
  [⟨.entry .null (.map []), ⟨[(.text "n", .int 1)], []⟩⟩, ⟨.entry .null (.map []), .empty⟩]

theorem execute_isolated_scripts :
    let tidy := scriptedJob ⟨"tidy", [], []⟩
    let messy := scriptedJob ⟨"messy", [.reset], [("go", .system "no")]⟩
    let service := Service.only "items" Visit.replayer
    let start : Start (List Visit) Unit := ⟨.empty, twoVisits, ()⟩
    ∃ (ends₁ : tidy.Ends service start) (ends₂ : messy.Ends service start),
      SameSights .empty .empty (execute tidy service start ends₁).trace
        (execute messy service start ends₂).trace := by
  intro tidy messy service start
  have hfinite : service.Finite := Service.only_finite "items" Visit.replayer_finite
  have htidy : tidy.runner.NeverStops := Script.runner_neverStops Unit (by simp)
  have hmessy : messy.runner.NeverStops := Script.runner_neverStops Unit (by simp [Fault.isOrdinary])
  have hopened : (tidy.asked service start).2.context = .empty := by
    simp only [Job.asked, service]
    rw [show tidy.iterable = "items" from rfl, Service.only_generate]
    rfl
  obtain ⟨-, -, hexecute⟩ := execute_isolated tidy messy service .empty twoVisits () ()
    ⟨rfl, rfl, rfl⟩ Observer.idle_quiet
    Observer.idle_quiet htidy hmessy
  rw [hopened] at hexecute
  exact ⟨Job.ends_of_finite hfinite tidy start, Job.ends_of_finite hfinite messy start,
    hexecute _ _⟩

end Foreach.Batch
