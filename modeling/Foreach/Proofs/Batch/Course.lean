import Foreach.Proofs.Batch.Turn
import Foreach.Proofs.Iteration

/-!
The course of a run: what its sequence gives, what is done for each item, and how it ends.

A run that comes to an end has a course, and the course tells everything about it: the result, the report
and the trace. So whatever holds of runs is shown of courses, without a loop. A run that goes on for ever
has a stretch of any length instead.
-/

namespace Foreach.Batch

variable {σ ρ : Type}

/-- A stretch of turns that all go on. It begins in `s` with `done` items done and the action in state
`r`, `base` being the context of the checkpoint. -/
structure Stretch (job : Job ρ) (source : Source σ) (base : Context) (done : Nat)
    (s : Surroundings σ) (r : ρ) where
  visits : List Visit
  calls : List Call
  /-- What the next turn finds. -/
  reached : Surroundings σ
  gives : source.Gives base s visits reached
  renders : Rendered job.template visits calls
  goesOn : ∀ k < calls.length, job.cancels (done + k) = .ok false
  isolated : ∀ d ∈ job.deeds done calls r, d.IsIsolated

/-- The course of a loop: a stretch, and the last turn after it. -/
structure Course (job : Job ρ) (source : Source σ) (base : Context) (done : Nat)
    (s : Surroundings σ) (r : ρ) extends Stretch job source base done s r where
  finish : Finish
  /-- What the last turn leaves to the closing of the sequence. -/
  left : Surroundings σ
  finishes : Finishes job source (done + calls.length) reached (job.stateAfterAll done calls r)
    finish left

namespace Stretch

variable {job : Job ρ} {source : Source σ} {base : Context} {done : Nat} {s : Surroundings σ} {r : ρ}

/-- The stretch of no turns. -/
def empty : Stretch job source base done s r where
  visits := []
  calls := []
  reached := s
  gives := .nil s
  renders := .nil
  goesOn _ hk := absurd hk (Nat.not_lt_zero _)
  isolated _ hd := absurd hd List.not_mem_nil

/-- A stretch with one more turn before it. -/
def cons {item : Item} {after : Surroundings σ} {text : String}
    (hcancel : job.cancels done = .ok false) (hpull : source.pull s = (.ok (some item), after))
    (hrender : item.render job.template = .ok text)
    (hisolated : (job.deed done (text, after.context) r).IsIsolated)
    (stretch : Stretch job source base (done + 1) ⟨base, after.state⟩
      (job.stateAfter done (text, after.context) r)) : Stretch job source base done s r where
  visits := ⟨item, after.context⟩ :: stretch.visits
  calls := (text, after.context) :: stretch.calls
  reached := stretch.reached
  gives := .cons hpull stretch.gives
  renders := .cons ⟨hrender, rfl⟩ stretch.renders
  goesOn
    | 0, _ => hcancel
    | k + 1, hk => by
      have hlater := stretch.goesOn k (Nat.lt_of_succ_lt_succ hk)
      rwa [Nat.add_assoc, Nat.add_comm 1] at hlater
  isolated := by
    intro d hd
    rcases List.mem_cons.1 hd with rfl | hd
    · exact hisolated
    · exact stretch.isolated d hd

theorem length_visits (stretch : Stretch job source base done s r) :
    stretch.visits.length = stretch.calls.length := stretch.renders.length_eq

end Stretch

namespace Course

variable {job : Job ρ} {source : Source σ} {base : Context} {done : Nat} {s : Surroundings σ} {r : ρ}

/-- The course of a loop that ends in its first turn. -/
def last {finish : Finish} {t : Surroundings σ} (h : Finishes job source done s r finish t) :
    Course job source base done s r :=
  { Stretch.empty with finish, left := t, finishes := h }

/-- A course with one more turn before it. -/
def cons {item : Item} {after : Surroundings σ} {text : String}
    (hcancel : job.cancels done = .ok false) (hpull : source.pull s = (.ok (some item), after))
    (hrender : item.render job.template = .ok text)
    (hisolated : (job.deed done (text, after.context) r).IsIsolated)
    (c : Course job source base (done + 1) ⟨base, after.state⟩
      (job.stateAfter done (text, after.context) r)) : Course job source base done s r :=
  { c.toStretch.cons hcancel hpull hrender hisolated with
    finish := c.finish
    left := c.left
    finishes := by
      have hfinishes := c.finishes
      rwa [Nat.add_assoc, Nat.add_comm 1] at hfinishes }

end Course

namespace Loop

variable {job : Job ρ} {checkpoint : Checkpoint} {source : Source σ}

/-- Visits whose deeds are no hard stops take the loop a turn each, if it is not cancelled before and the
observer takes their events. -/
theorem after_of_gives {s t : Surroundings σ} {visits : List Visit}
    (hgives : source.Gives (.restore checkpoint) s visits t) {calls : List Call}
    (hrenders : Rendered job.template visits calls) {p : Progress σ ρ}
    (hs : s = ⟨p.context, p.source⟩) (hcount : p.report.processed = p.checks)
    (hgoesOn : ∀ k < calls.length, job.cancels (p.checks + k) = .ok false)
    (hhears : job.HearsAll p.checks calls p.runner)
    (hisolated : ∀ d ∈ job.deeds p.checks calls p.runner, d.IsIsolated) :
    Iteration.after (turn job checkpoint source) calls.length p =
      .inl (p.past job (.restore checkpoint) calls t) := by
  induction hgives generalizing p calls with
  | nil s =>
    cases hrenders
    rw [hs, p.past_nil]
    rfl
  | @cons s after t item visits hpull hrest ih =>
    cases hrenders with
    | @cons _ call _ calls hcall hcalls =>
      obtain ⟨text, seen⟩ := call
      obtain ⟨htext, hseen⟩ := hcall
      dsimp only at htext hseen
      subst hs hseen
      have hturn := turn_of_deed checkpoint hcount
        (hgoesOn 0 (Nat.zero_lt_succ _)) hpull htext hhears.1 (hisolated _ List.mem_cons_self)
      rw [List.length_cons, Iteration.after_of_inl hturn,
        ← p.past_cons job (.restore checkpoint) (text, after.context) calls after.state t]
      refine ih hcalls rfl ?_ ?_ hhears.2 ?_
      · simp [Progress.past, Report.after, Job.deeds, hcount]
      · intro k hk
        have hnext := hgoesOn (k + 1) (Nat.succ_lt_succ hk)
        simpa [Progress.past, Nat.add_assoc, Nat.add_comm 1] using hnext
      · intro d hd
        exact hisolated d (List.mem_cons_of_mem _ hd)

end Loop

section

variable {job : Job ρ} (checkpoint : Checkpoint) {source : Source σ} {p : Progress σ ρ}

/-- A stretch takes a turn for each of its calls. -/
theorem Stretch.after_eq
    (stretch : Stretch job source (.restore checkpoint) p.checks ⟨p.context, p.source⟩ p.runner)
    (hquiet : job.observer.Quiet) (hcount : p.report.processed = p.checks) :
    Iteration.after (Loop.turn job checkpoint source) stretch.calls.length p =
      .inl (p.past job (.restore checkpoint) stretch.calls stretch.reached) :=
  Loop.after_of_gives stretch.gives stretch.renders rfl hcount stretch.goesOn
    (Job.hearsAll_of_quiet hquiet _ _ _) stretch.isolated

/-- The turn after the stretch of a course stops the loop. -/
theorem Course.turn_eq
    (c : Course job source (.restore checkpoint) p.checks ⟨p.context, p.source⟩ p.runner)
    (hquiet : job.observer.Quiet) (hcount : p.report.processed = p.checks) :
    ∃ r, Loop.turn job checkpoint source (p.past job (.restore checkpoint) c.calls c.reached) =
      .inr ⟨(p.past job (.restore checkpoint) c.calls c.reached).ended c.finish c.left r,
        c.finish.fault? job.iterable (p.checks + c.calls.length)⟩ :=
  Loop.turn_of_finishes hquiet (by simp [Progress.past, Report.after, hcount]) c.finishes

/-- A loop with a course comes to an end, and stops as its last turn does. -/
theorem Course.run_eq
    (c : Course job source (.restore checkpoint) p.checks ⟨p.context, p.source⟩ p.runner)
    (hquiet : job.observer.Quiet) (hcount : p.report.processed = p.checks) :
    ∃ (ends : Iteration.Ends (Loop.turn job checkpoint source) p) (r : ρ),
      Iteration.run (Loop.turn job checkpoint source) p ends =
        ⟨(p.past job (.restore checkpoint) c.calls c.reached).ended c.finish c.left r,
          c.finish.fault? job.iterable (p.checks + c.calls.length)⟩ := by
  have hafter := c.toStretch.after_eq checkpoint hquiet hcount
  obtain ⟨r, hstop⟩ := c.turn_eq checkpoint hquiet hcount
  have ends := Iteration.ends_of_after hafter (Iteration.ends_of_inr hstop)
  exact ⟨ends, r, Iteration.run_of_after hafter hstop ends⟩

variable {checkpoint}

/-- A loop that comes to an end has a course. -/
theorem exists_course (hquiet : job.observer.Quiet)
    (ends : Iteration.Ends (Loop.turn job checkpoint source) p)
    (hcount : p.report.processed = p.checks) :
    Nonempty (Course job source (.restore checkpoint) p.checks ⟨p.context, p.source⟩ p.runner) := by
  induction ends with
  | intro p _ ih =>
    rcases deed_or_finishes job source p.checks ⟨p.context, p.source⟩ p.runner with
      ⟨item, after, text, hcancel, hpull, hrender, hisolated⟩ | ⟨finish, t, hlast⟩
    · have hturn := Loop.turn_of_deed checkpoint hcount hcancel hpull hrender
        (Job.hears_of_quiet hquiet _ _ _) hisolated
      obtain ⟨c⟩ := ih _ hturn (by simp [Progress.past, Report.after, Job.deeds, hcount])
      exact ⟨.cons hcancel hpull hrender hisolated c⟩
    · exact ⟨.last hlast⟩

end

/-- A loop goes on for any number of turns, or has a course that is shorter. -/
theorem exists_stretch_or_course (job : Job ρ) (source : Source σ) (base : Context) (turns done : Nat)
    (s : Surroundings σ) (r : ρ) :
    (∃ stretch : Stretch job source base done s r, stretch.calls.length = turns) ∨
      ∃ c : Course job source base done s r, c.calls.length < turns := by
  induction turns generalizing done s r with
  | zero => exact .inl ⟨.empty, rfl⟩
  | succ turns ih =>
    rcases deed_or_finishes job source done s r with
      ⟨item, after, text, hcancel, hpull, hrender, hisolated⟩ | ⟨finish, t, hlast⟩
    · rcases ih (done + 1) ⟨base, after.state⟩ (job.stateAfter done (text, after.context) r) with
        ⟨stretch, hlength⟩ | ⟨c, hlength⟩
      · exact .inl ⟨stretch.cons hcancel hpull hrender hisolated, congrArg (· + 1) hlength⟩
      · exact .inr ⟨.cons hcancel hpull hrender hisolated c, Nat.succ_lt_succ hlength⟩
    · exact .inr ⟨.last hlast, Nat.zero_lt_succ _⟩

end Foreach.Batch
