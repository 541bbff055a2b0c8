import Foreach.Proofs.Batch.Replay
import Foreach.Proofs.Batch.View
import Foreach.Script.Runner

/-!
Runs that go through all their items.

A run is complete when its sequence ends by itself, every item has a text and no action is stopped hard.
Everything that such a run does is then told by its deeds.
-/

namespace Foreach.Batch

variable {σ ρ : Type}

/-- What the actions that succeeded gave, numbered from `first` on. -/
def successes (first : Nat) (deeds : List Deed) : List (Int × ActionResult) :=
  (deeds.zipIdx first).filterMap fun (d, index) => d.result?.map fun result => ((index : Int), result)

theorem successes_cons (first : Nat) (d : Deed) (ds : List Deed) :
    successes first (d :: ds) =
      (d.result?.map fun result => ((first : Int), result)).toList ++ successes (first + 1) ds := by
  cases hresult : d.result? <;> simp [successes, List.zipIdx_cons, hresult]

/-- The results in the report are the numbered ones without their numbers. -/
theorem map_snd_successes (first : Nat) (deeds : List Deed) :
    (successes first deeds).map Prod.snd = results deeds := by
  induction deeds generalizing first with
  | nil => rfl
  | cons d ds ih =>
    rw [successes_cons, results_cons, List.map_append, ih]
    cases d.result? <;> rfl

/-- Each deed has its number in exactly one of the two lists. -/
theorem positions_perm (first : Nat) (deeds : List Deed) :
    ((successes first deeds).map Prod.fst ++ (failures first deeds).map Prod.fst).Perm
      ((List.range' first deeds.length).map Int.ofNat) := by
  induction deeds generalizing first with
  | nil => exact .refl _
  | cons d ds ih =>
    have hrest := ih (first + 1)
    rw [successes_cons, failures_cons]
    obtain ⟨text, seen, f | result⟩ := d
    · exact List.perm_middle.trans (hrest.cons _)
    · exact hrest.cons _

/-- A run that returned after the deeds for these calls, and what it has told of them. -/
structure Outcome.Completes (o : Outcome σ ρ) (calls : List Call) (deeds : List Deed) : Prop where
  returned : o.result = .ok o.report
  notCancelled : o.report.cancelled = false
  notAborted : o.report.aborted = false
  processed : o.report.processed = calls.length
  invocations : o.calls = calls
  /-- Each pull comes before the invocation for its item, and the last one finds the end. -/
  moves : o.moves = (calls.flatMap fun call => [none, some call.1]) ++ [none]
  results : o.report.results = (successes 1 deeds).map Prod.snd
  failures : o.report.failures = Batch.failures 1 deeds
  positions : ((successes 1 deeds).map Prod.fst ++ o.report.failures.map Prod.fst).Perm
    ((List.range' 1 calls.length).map Int.ofNat)
  lines : o.lines = ((deeds.zipIdx 1).flatMap fun (d, index) => d.lines index) ++
    [(false, s!"Processed {calls.length} items")]

/-- A run over an offer that nothing cancels does the deeds for all its items and returns, provided that
each item has a text and that the action answers each with a result or an ordinary failure. -/
theorem execute_completes {job : Job ρ} {service : Service σ} {start : Start σ ρ}
    {visits : List Visit} {calls : List Call} (hquiet : job.observer.Quiet)
    (hoffers : service.Offers job.iterable start.context start.source visits)
    (hrenders : Rendered job.template visits calls)
    (hcancel : ∀ check, job.cancels check = .ok false)
    (hisolated : ∀ d ∈ job.deeds 0 calls (job.firstState start), d.IsIsolated) :
    ∃ ends, (execute job service start ends).Completes calls
      (job.deeds 0 calls (job.firstState start)) := by
  obtain ⟨source, s, hasked, c, -, rfl, hfinish, hclose⟩ :=
    exists_runCourse_of_offers start hoffers hrenders (fun check _ => hcancel check) hisolated
  have ends := c.ends hquiet hasked
  obtain ⟨hresult, hreport, htrace⟩ := c.execute_eq hquiet hasked ends
  have hfault := c.fault?_of_exhausted hfinish hclose
  exact ⟨ends, {
    returned := by
      rw [hresult, hfault, hreport]
      rfl
    notCancelled := by simp only [hreport, RunCourse.report, hfinish, Finish.isCancelled]
    notAborted := by simp only [hreport, RunCourse.report, hfault, Option.isSome_none]
    processed := by simp [hreport, RunCourse.report, hfinish, Finish.met]
    invocations := by
      simp only [Outcome.calls, htrace, c.trace_calls, hfinish, Finish.calls, List.append_nil]
    moves := by
      simp only [Outcome.moves, htrace, c.trace_moves, hfinish, Finish.calls, Finish.pulls,
        List.map_nil, List.append_nil, List.replicate_one]
    results := by simp only [hreport, RunCourse.report, map_snd_successes, RunCourse.deeds]
    failures := by simp only [hreport, RunCourse.report, RunCourse.deeds]
    positions := by
      have hpositions := positions_perm 1 (job.deeds 0 c.calls (job.firstState start))
      rw [Job.deeds_length] at hpositions
      simpa only [hreport, RunCourse.report, RunCourse.deeds] using hpositions
    lines := by
      simp [Outcome.lines, htrace, c.trace_lines, hfinish, Finish.lines, Finish.fault?,
        RunCourse.deeds] }⟩

/-- A job with a text for each item, whose action fails on the first one. -/
def countingJob : Job Unit where
  iterable := "numbers"
  template := "{n}"
  runner := Script.runner Unit ⟨"first fails", [.reset], [("1", .system "no")]⟩
  observer := .idle
  cancel := none
  now := .int 0

/-- Visits for the job: items with a number, the first of which leaves something in the context. -/
def numbers : List Visit :=
  [⟨.entry .null (.record [("n", .int 1)]), ⟨[(.text "n", .int 1)], []⟩⟩,
    ⟨.entry .null (.record [("n", .int 2)]), .empty⟩]

theorem execute_completes_counting :
    ∃ ends : countingJob.Ends (Service.only "numbers" Visit.replayer) ⟨.empty, numbers, ()⟩,
      (execute countingJob (Service.only "numbers" Visit.replayer) ⟨.empty, numbers, ()⟩
        ends).Completes [("1", ⟨[(.text "n", .int 1)], []⟩), ("2", .empty)]
        [⟨"1", ⟨[(.text "n", .int 1)], []⟩, .error (.system "no")⟩,
          ⟨"2", .empty, .ok ⟨"2", "<2>", 0, []⟩⟩] := by
  refine execute_completes Observer.idle_quiet (Visit.offers_replay "numbers" .empty numbers) ?_
    (fun _ => rfl) ?_
  · exact .cons ⟨rfl, rfl⟩ (.cons ⟨rfl, rfl⟩ .nil)
  · exact Job.deeds_isolated (Script.runner_neverStops Unit (by simp [Fault.isOrdinary])) _ _ _

end Foreach.Batch
