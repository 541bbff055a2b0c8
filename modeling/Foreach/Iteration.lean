/-!
Repeating a step until it stops.

A step goes on with a new state or stops with a result. `Iteration.run` repeats it from a state from
which it comes to an end; a quantity that becomes smaller each time shows that it does.
-/

namespace Foreach.Iteration

variable {σ ω : Type}

/-- The state `t` comes right after `s`. -/
def Follows (step : σ → σ ⊕ ω) (t s : σ) : Prop := step s = .inl t

/-- Repeating the step from `s` comes to an end. -/
def Ends (step : σ → σ ⊕ ω) (s : σ) : Prop := Acc (Follows step) s

theorem Ends.next {step : σ → σ ⊕ ω} {s t : σ} (ends : Ends step s) (h : step s = .inl t) :
    Ends step t := ends.inv h

/-- The result of repeating the step from `s`. -/
def run (step : σ → σ ⊕ ω) (s : σ) (ends : Ends step s) : ω :=
  match h : step s with
  | .inr result => result
  | .inl t => run step t (ends.next h)
termination_by (⟨s, ends⟩ : { s // Acc (Follows step) s })
decreasing_by exact h

theorem run_of_inr {step : σ → σ ⊕ ω} {s : σ} {result : ω} (ends : Ends step s)
    (h : step s = .inr result) : run step s ends = result := by
  rw [run]
  split
  next r hr => exact Sum.inr.inj (hr.symm.trans h)
  next t ht => exact absurd (ht.symm.trans h) (by simp)

theorem run_of_inl {step : σ → σ ⊕ ω} {s t : σ} (ends : Ends step s) (h : step s = .inl t) :
    run step s ends = run step t (ends.next h) := by
  rw [run]
  split
  next r hr => exact absurd (hr.symm.trans h) (by simp)
  next u hu =>
    cases Sum.inl.inj (hu.symm.trans h)
    rfl

/-- A step that makes `size` smaller whenever it goes on comes to an end. -/
theorem ends_of_size {step : σ → σ ⊕ ω} (size : σ → Nat)
    (h : ∀ s t, step s = .inl t → size t < size s) (s : σ) : Ends step s :=
  Subrelation.accessible (h _ _) (InvImage.accessible size (Nat.lt_wfRel.wf.apply _))

end Foreach.Iteration
