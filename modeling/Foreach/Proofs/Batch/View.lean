import Foreach.Proofs.Batch.Run

/-!
What can be seen of a run: its pulls, its invocations, its lines for the user, and its closings.

Each view of a trace is told for the deeds of a course and for its last turn, so that no view has to look
into single events.
-/

namespace Foreach.Batch

/-- The context that a pull took place in. -/
def Event.pull? : Event → Option Context
  | .pulled seen => some seen
  | _ => none

/-- A pull, or else the text of an invocation. -/
def Event.move? : Event → Option (Option String)
  | .pulled _ => some none
  | .invoked text _ => some (some text)
  | _ => none

/-- What the observer was told. -/
def Event.entry? : Event → Option Entry
  | .logged e => some e
  | _ => none

def Event.isClosing : Event → Bool
  | .closed => true
  | _ => false

namespace Outcome

variable {σ ρ : Type}

/-- The contexts of the pulls of a run, in order. -/
def pulls (o : Outcome σ ρ) : List Context := o.trace.filterMap Event.pull?

/-- The invocations of a run, in order. -/
def calls (o : Outcome σ ρ) : List Call := o.trace.filterMap Event.call?

/-- The pulls and the texts of the invocations of a run, in one order. -/
def moves (o : Outcome σ ρ) : List (Option String) := o.trace.filterMap Event.move?

/-- The lines of a run for the user, each with its channel. -/
def lines (o : Outcome σ ρ) : List (Bool × String) := o.trace.filterMap Event.line?

/-- How often the sequence of a run was closed. -/
def closings (o : Outcome σ ρ) : Nat := o.trace.countP Event.isClosing

end Outcome

/-! ### Deeds -/

/-- The lines for an item with this number. -/
def Deed.lines (d : Deed) (index : Nat) : List (Bool × String) :=
  (false, s!"Processing item {index}...") ::
    match d.answer with
    | .ok _ => []
    | .error f => [(true, s!"Error processing item {index}: {f.message}")]

theorem Deed.events_calls (d : Deed) (index : Int) (before : Context) :
    (d.events index before).filterMap Event.call? = [d.call] := by
  obtain ⟨text, seen, _ | _⟩ := d <;> rfl

theorem Deed.events_pulls (d : Deed) (index : Int) (before : Context) :
    (d.events index before).filterMap Event.pull? = [before] := by
  obtain ⟨text, seen, _ | _⟩ := d <;> rfl

theorem Deed.events_moves (d : Deed) (index : Int) (before : Context) :
    (d.events index before).filterMap Event.move? = [none, some d.text] := by
  obtain ⟨text, seen, _ | _⟩ := d <;> rfl

theorem Deed.events_lines (d : Deed) (index : Nat) (before : Context) :
    (d.events index before).filterMap Event.line? = d.lines index := by
  obtain ⟨text, seen, _ | _⟩ := d <;> rfl

theorem Deed.events_closings (d : Deed) (index : Int) (before : Context) :
    (d.events index before).countP Event.isClosing = 0 := by
  obtain ⟨text, seen, _ | _⟩ := d <;> rfl

/-- A view of the events of deeds is put together from its views of the single ones. -/
theorem eventsOf_filterMap {α : Type} {view : Event → Option α} (seen : Deed → Nat → List α)
    (hevents : ∀ (d : Deed) (index : Nat) before, (d.events index before).filterMap view = seen d index)
    (base : Context) (done : Nat) (before : Context) (ds : List Deed) :
    (eventsOf base done before ds).filterMap view =
      (ds.zipIdx (done + 1)).flatMap fun (d, index) => seen d index := by
  induction ds generalizing done before with
  | nil => rfl
  | cons d ds ih =>
    simp only [eventsOf, List.filterMap_append, hevents, ih, List.zipIdx_cons, List.flatMap_cons]

/-- The numbers drop out of a view that does not show them. -/
theorem eventsOf_filterMap_unnumbered {α : Type} {view : Event → Option α} {seen : Deed → List α}
    (hevents : ∀ (d : Deed) (index : Nat) before, (d.events index before).filterMap view = seen d)
    (base : Context) (done : Nat) (before : Context) (ds : List Deed) :
    (eventsOf base done before ds).filterMap view = ds.flatMap seen := by
  rw [eventsOf_filterMap (fun d _ => seen d) hevents]
  conv_rhs => rw [← List.zipIdx_map_fst (done + 1) ds, List.flatMap_map]

theorem eventsOf_calls (base : Context) (done : Nat) (before : Context) (ds : List Deed) :
    (eventsOf base done before ds).filterMap Event.call? = ds.map Deed.call := by
  rw [eventsOf_filterMap_unnumbered fun d index => d.events_calls index, List.map_eq_flatMap]

theorem eventsOf_moves (base : Context) (done : Nat) (before : Context) (ds : List Deed) :
    (eventsOf base done before ds).filterMap Event.move? =
      ds.flatMap fun d => [none, some d.text] :=
  eventsOf_filterMap_unnumbered (fun d index => d.events_moves index) base done before ds

theorem eventsOf_lines (base : Context) (done : Nat) (before : Context) (ds : List Deed) :
    (eventsOf base done before ds).filterMap Event.line? =
      (ds.zipIdx (done + 1)).flatMap fun (d, index) => d.lines index :=
  eventsOf_filterMap Deed.lines Deed.events_lines base done before ds

theorem eventsOf_closings (base : Context) (done : Nat) (before : Context) (ds : List Deed) :
    (eventsOf base done before ds).countP Event.isClosing = 0 := by
  induction ds generalizing done before with
  | nil => rfl
  | cons d ds ih => simp only [eventsOf, List.countP_append, Deed.events_closings, ih]

/-- The first pull takes place in the context `before` and each later one in `base`. -/
theorem eventsOf_pulls (base : Context) (done : Nat) (before : Context) (ds : List Deed) :
    (eventsOf base done before ds).filterMap Event.pull? =
      (before :: List.replicate ds.length base).take ds.length := by
  induction ds generalizing done before with
  | nil => rfl
  | cons d ds ih =>
    simp only [eventsOf, List.filterMap_append, Deed.events_pulls, ih, List.singleton_append,
      List.length_cons, List.take_succ_cons, List.replicate_succ]

/-! ### Last turns -/

namespace Finish

/-- The invocation of the last turn, if it came to one. -/
def calls : Finish → List Call
  | .stopped text seen _ => [(text, seen)]
  | _ => []

/-- How often the last turn pulled. -/
def pulls : Finish → Nat
  | .cancelled | .unanswered _ => 0
  | _ => 1

/-- The lines of the last turn, after `done` items. -/
def lines (done : Nat) : Finish → List (Bool × String)
  | .cancelled => [(false, s!"Cancelled after {done} items")]
  | .unrendered _ | .stopped _ _ _ => [(false, s!"Processing item {done + 1}...")]
  | _ => []

theorem events_calls (finish : Finish) (done : Nat) (before : Context) :
    (finish.events done before).filterMap Event.call? = finish.calls := by
  cases finish <;> rfl

theorem events_pulls (finish : Finish) (done : Nat) (before : Context) :
    (finish.events done before).filterMap Event.pull? = List.replicate finish.pulls before := by
  cases finish <;> rfl

theorem events_moves (finish : Finish) (done : Nat) (before : Context) :
    (finish.events done before).filterMap Event.move? =
      List.replicate finish.pulls none ++ finish.calls.map fun call => some call.1 := by
  cases finish <;> rfl

theorem events_lines (finish : Finish) (done : Nat) (before : Context) :
    (finish.events done before).filterMap Event.line? = finish.lines done := by
  cases finish <;> rfl

theorem events_closings (finish : Finish) (done : Nat) (before : Context) :
    (finish.events done before).countP Event.isClosing = 0 := by
  cases finish <;> rfl

end Finish

/-! ### Runs -/

section

variable {σ ρ : Type} (job : Job ρ) (start : Start σ ρ) (opened : Context) (calls : List Call)

theorem Job.history_calls :
    (job.history start opened calls).filterMap Event.call? = calls := by
  simp only [history, List.filterMap_cons, Event.call?, eventsOf_calls, deeds_map_call]

theorem Job.history_pulls :
    (job.history start opened calls).filterMap Event.pull? =
      (opened :: List.replicate calls.length start.context).take calls.length := by
  simp only [history, List.filterMap_cons, Event.pull?, eventsOf_pulls, deeds_length]

theorem Job.history_moves :
    (job.history start opened calls).filterMap Event.move? =
      calls.flatMap fun call => [none, some call.1] := by
  have hdeeds := job.deeds_map_call 0 calls (job.firstState start)
  simp only [history, List.filterMap_cons, Event.move?, eventsOf_moves]
  conv_rhs => rw [← hdeeds, List.flatMap_map]
  rfl

theorem Job.history_lines :
    (job.history start opened calls).filterMap Event.line? =
      ((job.deeds 0 calls (job.firstState start)).zipIdx 1).flatMap
        fun (d, index) => d.lines index := by
  simp only [history, List.filterMap_cons, Event.line?, eventsOf_lines, Nat.zero_add]

theorem Job.history_closings :
    (job.history start opened calls).countP Event.isClosing = 0 := by
  simp only [history, List.countP_cons, Event.isClosing, eventsOf_closings, Bool.false_eq_true,
    if_false]

end

namespace RunCourse

variable {σ ρ : Type} {job : Job ρ} {start : Start σ ρ} {source : Source σ} {s : Surroundings σ}

theorem loopTrace_calls (c : RunCourse job start source s) :
    c.loopTrace.filterMap Event.call? = c.calls ++ c.finish.calls := by
  simp only [loopTrace, List.filterMap_append, Job.history_calls, Finish.events_calls]

/-- What follows the loop is out of sight for a view that shows neither lines nor closings nor what the
observer is told. -/
theorem trace_filterMap (c : RunCourse job start source s) {α : Type} {view : Event → Option α}
    (htold : ∀ line, view (.told line) = none) (hclosed : view .closed = none)
    (hlogged : ∀ e, view (.logged e) = none) :
    c.trace.filterMap view = c.loopTrace.filterMap view := by
  have hfarewell : c.farewell.filterMap view = [] := by
    unfold farewell
    split <;> split <;> simp [htold, hclosed]
  rw [trace, List.filterMap_append, List.filterMap_append, hfarewell,
    List.filterMap_cons_none (hlogged _), List.filterMap_nil, List.append_nil, List.append_nil]

theorem trace_calls (c : RunCourse job start source s) :
    c.trace.filterMap Event.call? = c.calls ++ c.finish.calls :=
  (c.trace_filterMap (fun _ => rfl) rfl fun _ => rfl).trans c.loopTrace_calls

theorem trace_moves (c : RunCourse job start source s) :
    c.trace.filterMap Event.move? = (c.calls.flatMap fun call => [none, some call.1]) ++
      List.replicate c.finish.pulls none ++ c.finish.calls.map fun call => some call.1 := by
  rw [c.trace_filterMap (fun _ => rfl) rfl fun _ => rfl]
  simp only [loopTrace, List.filterMap_append, Job.history_moves, Finish.events_moves,
    List.append_assoc]

theorem trace_lines (c : RunCourse job start source s) :
    c.trace.filterMap Event.line? = ((c.deeds.zipIdx 1).flatMap fun (d, index) => d.lines index) ++
      c.finish.lines c.calls.length ++
      if (c.finish.fault? job.iterable c.calls.length).isNone then
        [(false, s!"Processed {c.calls.length} items")] else [] := by
  have hfarewell : c.farewell.filterMap Event.line? =
      if (c.finish.fault? job.iterable c.calls.length).isNone then
        [(false, s!"Processed {c.calls.length} items")] else [] := by
    unfold farewell
    split <;> split <;> rfl
  simp only [trace, loopTrace, deeds, List.filterMap_append, Job.history_lines,
    Finish.events_lines, hfarewell, List.filterMap_cons, Event.line?, List.filterMap_nil,
    List.append_nil]

/-- A sequence that can be closed is closed once, and no other is. -/
theorem trace_closings (c : RunCourse job start source s) :
    c.trace.countP Event.isClosing = if source.close?.isSome then 1 else 0 := by
  have hfarewell : c.farewell.countP Event.isClosing = if source.close?.isSome then 1 else 0 := by
    unfold farewell
    split <;> split <;> rfl
  simp only [trace, loopTrace, List.countP_append, Job.history_closings, Finish.events_closings,
    hfarewell, List.countP_cons, List.countP_nil, Event.isClosing, Bool.false_eq_true, if_false,
    Nat.add_zero, Nat.zero_add]

/-- The first pull takes place in the context that the opening of the sequence left, and each later one
in the context of the checkpoint. -/
theorem loopTrace_pulls (c : RunCourse job start source s) :
    c.loopTrace.filterMap Event.pull? =
      (s.context :: List.replicate c.calls.length start.context).take
        (c.calls.length + c.finish.pulls) := by
  have hreached := c.gives.context_eq
  rw [c.length_visits] at hreached
  simp only [loopTrace, List.filterMap_append, Job.history_pulls, Finish.events_pulls]
  cases hpulls : c.finish.pulls with
  | zero => simp
  | succ n =>
    have hone : n = 0 := by
      revert hpulls
      cases c.finish <;> simp [Finish.pulls]
    subst hone
    rw [List.take_add_one, hreached]
    rfl

theorem trace_pulls (c : RunCourse job start source s) :
    c.trace.filterMap Event.pull? =
      (s.context :: List.replicate c.calls.length start.context).take
        (c.calls.length + c.finish.pulls) :=
  (c.trace_filterMap (fun _ => rfl) rfl fun _ => rfl).trans c.loopTrace_pulls

end RunCourse
end Foreach.Batch
