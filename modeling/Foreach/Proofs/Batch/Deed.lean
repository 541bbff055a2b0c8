import Foreach.Batch.Execute
import Foreach.Batch.Records
import Mathlib.Data.List.Forall2

/-!
What a run is made of: visits, calls and deeds.

A sequence is visited pull by pull, each visit becomes a call of the action, and each call a deed, which
has the action's answer too. None of the three mentions the loop: visits are told by the sequence alone,
calls by the template, and deeds by the action and the observer.
-/

namespace Foreach

/-- What a pull gave: the item, and the context as the pull left it. -/
structure Visit where
  item : Item
  seen : Context

/-- From `s`, the pulls give these items one after another and lead to `t`. The context is `base` again
before every pull but the first. -/
inductive Source.Gives {σ : Type} (source : Source σ) (base : Context) :
    Surroundings σ → List Visit → Surroundings σ → Prop
  | nil (s : Surroundings σ) : Gives source base s [] s
  | cons {s after t : Surroundings σ} {item : Item} {visits : List Visit}
      (hpull : source.pull s = (.ok (some item), after))
      (hrest : Gives source base ⟨base, after.state⟩ visits t) :
      Gives source base s (⟨item, after.context⟩ :: visits) t

/-- The context that pulls lead to is `base`, unless there were none. -/
theorem Source.Gives.context_eq {σ : Type} {source : Source σ} {base : Context}
    {s t : Surroundings σ} {visits : List Visit} (hgives : source.Gives base s visits t) :
    (s.context :: List.replicate visits.length base)[visits.length]? = some t.context := by
  induction hgives with
  | nil s => rfl
  | cons _ _ ih => simpa [List.replicate_succ] using ih

/-- The failure to close a sequence, where it can be closed and that fails. -/
def Source.closeFault? {σ : Type} (source : Source σ) (s : Surroundings σ) : Option Fault :=
  match source.close? with
  | none => none
  | some act =>
    match (act s).1 with
    | .ok () => none
    | .error f => some f

/-- The text of a template for an item; what is no item has none. -/
def Item.render (template : String) : Item → Except Fault String
  | .entry _ vars => Template.interpolate template vars
  | .bare _ => .error (.noPart "object has no attribute 'variables'")

namespace Batch

variable {σ ρ : Type}

/-- A text for the action, and the context that it is invoked in. -/
abbrev Call := String × Context

/-- The visits become these calls: each item is rendered, in the context that its pull left. -/
def Rendered (template : String) (visits : List Visit) (calls : List Call) : Prop :=
  List.Forall₂ (fun v call => v.item.render template = .ok call.1 ∧ call.2 = v.seen) visits calls

/-- An invocation of the action, with its answer. -/
structure Deed where
  text : String
  seen : Context
  answer : Except Fault ActionResult

namespace Deed

def call (d : Deed) : Call := (d.text, d.seen)

/-- If the action failed, then in an ordinary way. -/
def IsIsolated (d : Deed) : Prop := ∀ f, d.answer = .error f → f.isOrdinary = true

def result? (d : Deed) : Option ActionResult := d.answer.toOption

def fault? (d : Deed) : Option Fault :=
  match d.answer with
  | .ok _ => none
  | .error f => some f

/-- The event that closes the item with this number. -/
def closing (index : Int) : Except Fault ActionResult → Entry
  | .ok _ => .itemFinished index
  | .error f => .itemFailed index f.message

/-- The line for the user about a failure. -/
def warning (index : Int) : Except Fault ActionResult → List Event
  | .ok _ => []
  | .error f => [.warned (Fault.action index f).message]

/-- What happens for the item with this number, its pull taking place in the context `before`. -/
def events (d : Deed) (index : Int) (before : Context) : List Event :=
  [.pulled before, .told s!"Processing item {index}...", .logged (.itemStarted index d.text),
    .invoked d.text d.seen] ++ warning index d.answer ++ [.logged (closing index d.answer)]

end Deed

/-- What the actions that succeeded gave. -/
def results (deeds : List Deed) : List ActionResult := deeds.filterMap Deed.result?

/-- The failures of the actions, numbered from `first` on. -/
def failures (first : Nat) (deeds : List Deed) : List (Int × Fault) :=
  (deeds.zipIdx first).filterMap fun (d, index) => d.fault?.map fun f => ((index : Int), f)

/-- What happens for items in a row, the first of which is pulled in the context `before` after `done`
others, and each of the others in `base`. -/
def eventsOf (base : Context) : Nat → Context → List Deed → List Event
  | _, _, [] => []
  | done, before, d :: deeds =>
    d.events (done + 1 : Nat) before ++ eventsOf base (done + 1) base deeds

/-- The report after more items. -/
def Report.after (r : Report) (done : Nat) (deeds : List Deed) : Report :=
  { r with
    processed := r.processed + deeds.length
    results := r.results ++ Batch.results deeds
    failures := r.failures ++ Batch.failures (done + 1) deeds }

namespace Job

/-- The state of the action once the observer was told of an event. -/
def heard (job : Job ρ) (e : Entry) (r : ρ) : ρ := (job.observer.log e r).2

/-- The action on the text of the item with this number, which the observer is told of before. -/
def perform (job : Job ρ) (index : Int) (call : Call) (r : ρ) :
    Except Fault ActionResult × Surroundings ρ :=
  job.runner.invoke call.1 ⟨call.2, job.heard (.itemStarted index call.1) r⟩

/-- The deed for a call, `done` others being done. -/
def deed (job : Job ρ) (done : Nat) (call : Call) (r : ρ) : Deed :=
  ⟨call.1, call.2, (job.perform (done + 1 : Nat) call r).1⟩

/-- The state of the action after the deed for a call. -/
def stateAfter (job : Job ρ) (done : Nat) (call : Call) (r : ρ) : ρ :=
  let performed := job.perform (done + 1 : Nat) call r
  job.heard (Deed.closing (done + 1 : Nat) performed.1) performed.2.state

/-- The observer takes the events of the deed for a call without a failure. -/
def Hears (job : Job ρ) (done : Nat) (call : Call) (r : ρ) : Prop :=
  (job.observer.log (.itemStarted (done + 1 : Nat) call.1) r).1 = .ok () ∧
    (job.observer.log (Deed.closing (done + 1 : Nat) (job.perform (done + 1 : Nat) call r).1)
      (job.perform (done + 1 : Nat) call r).2.state).1 = .ok ()

theorem hears_of_quiet {job : Job ρ} (hquiet : job.observer.Quiet) (done : Nat) (call : Call) (r : ρ) :
    job.Hears done call r := ⟨hquiet.1 _ _, hquiet.1 _ _⟩

/-- The deeds for calls in a row, `done` others being done. -/
def deeds (job : Job ρ) : Nat → List Call → ρ → List Deed
  | _, [], _ => []
  | done, call :: calls, r =>
    job.deed done call r :: deeds job (done + 1) calls (job.stateAfter done call r)

/-- The state of the action after the deeds for calls in a row. -/
def stateAfterAll (job : Job ρ) : Nat → List Call → ρ → ρ
  | _, [], r => r
  | done, call :: calls, r => stateAfterAll job (done + 1) calls (job.stateAfter done call r)

/-- The observer takes the events of the deeds for calls in a row without a failure. -/
def HearsAll (job : Job ρ) : Nat → List Call → ρ → Prop
  | _, [], _ => True
  | done, call :: calls, r =>
    job.Hears done call r ∧ HearsAll job (done + 1) calls (job.stateAfter done call r)

theorem hearsAll_of_quiet {job : Job ρ} (hquiet : job.observer.Quiet) (done : Nat)
    (calls : List Call) (r : ρ) : job.HearsAll done calls r := by
  induction calls generalizing done r with
  | nil => trivial
  | cons call calls ih => exact ⟨hears_of_quiet hquiet done call r, ih _ _⟩

@[simp] theorem deeds_length (job : Job ρ) (done : Nat) (calls : List Call) (r : ρ) :
    (job.deeds done calls r).length = calls.length := by
  induction calls generalizing done r with
  | nil => rfl
  | cons call calls ih => simp [deeds, ih]

/-- Deeds are done on the calls as they are, whatever the action answers. -/
theorem deeds_map_call (job : Job ρ) (done : Nat) (calls : List Call) (r : ρ) :
    (job.deeds done calls r).map Deed.call = calls := by
  induction calls generalizing done r with
  | nil => rfl
  | cons call calls ih => simp [deeds, deed, Deed.call, ih]

/-- An action that never stops does deeds that are no hard stops. -/
theorem deeds_isolated {job : Job ρ} (hnever : job.runner.NeverStops) (done : Nat)
    (calls : List Call) (r : ρ) : ∀ d ∈ job.deeds done calls r, d.IsIsolated := by
  induction calls generalizing done r with
  | nil => exact fun d hd => absurd hd List.not_mem_nil
  | cons call calls ih =>
    intro d hd
    rcases List.mem_cons.1 hd with rfl | hd
    · exact fun f hf => hnever _ _ f hf
    · exact ih _ _ d hd

end Job

@[simp] theorem results_nil : results [] = [] := rfl

theorem results_cons (d : Deed) (ds : List Deed) :
    results (d :: ds) = d.result?.toList ++ results ds := by
  cases hresult : d.result? <;> simp [results, hresult]

theorem results_append (ds es : List Deed) : results (ds ++ es) = results ds ++ results es :=
  List.filterMap_append

@[simp] theorem failures_nil (first : Nat) : failures first [] = [] := rfl

theorem failures_cons (first : Nat) (d : Deed) (ds : List Deed) :
    failures first (d :: ds) =
      (d.fault?.map fun f => ((first : Int), f)).toList ++ failures (first + 1) ds := by
  cases hfault : d.fault? <;> simp [failures, List.zipIdx_cons, hfault]

theorem failures_append (first : Nat) (ds es : List Deed) :
    failures first (ds ++ es) = failures first ds ++ failures (first + ds.length) es := by
  simp only [failures, List.zipIdx_append, List.filterMap_append]

@[simp] theorem Report.after_nil (r : Report) (done : Nat) : r.after done [] = r := by
  simp [after]

theorem Report.after_append (r : Report) (done : Nat) (ds es : List Deed) :
    (r.after done ds).after (done + ds.length) es = r.after done (ds ++ es) := by
  simp only [after, results_append, failures_append, List.append_assoc, List.length_append,
    Int.natCast_add, Int.add_assoc, Nat.add_right_comm]

end Batch
end Foreach
