import Foreach.Iteration

/-!
The way of a repeated step.

`after` takes a number of steps and no more, so it is there for steps that never stop too. A run goes on
from any state on its way as it would from its beginning.
-/

namespace Foreach.Iteration

variable {σ ω : Type}

/-- Where a number of steps lead; the result, if the step stops before. -/
def after (step : σ → σ ⊕ ω) : Nat → σ → σ ⊕ ω
  | 0, s => .inl s
  | n + 1, s =>
    match step s with
    | .inl t => after step n t
    | .inr result => .inr result

variable {step : σ → σ ⊕ ω}

theorem after_of_inl {s t : σ} (hstep : step s = .inl t) (n : Nat) :
    after step (n + 1) s = after step n t := by
  simp only [after, hstep]

theorem after_of_inr {s : σ} {result : ω} (hstop : step s = .inr result) (n : Nat) :
    after step (n + 1) s = .inr result := by
  simp only [after, hstop]

/-- Steps in a row can be taken in two parts. -/
theorem after_add {s t : σ} {m : Nat} (h : after step m s = .inl t) (n : Nat) :
    after step (m + n) s = after step n t := by
  induction m generalizing s with
  | zero =>
    cases h
    rw [Nat.zero_add]
  | succ m ih =>
    cases hstep : step s with
    | inl u =>
      rw [after_of_inl hstep] at h
      rw [Nat.add_right_comm, after_of_inl hstep]
      exact ih h
    | inr result =>
      rw [after_of_inr hstep] at h
      cases h

/-- What is met on the way from a state is met right there or on the way from the next one. -/
theorem exists_after_of_inl {P : σ → Prop} {s t : σ} (hstep : step s = .inl t) :
    (∃ n u, after step n s = .inl u ∧ P u) ↔ P s ∨ ∃ n u, after step n t = .inl u ∧ P u := by
  constructor
  · rintro ⟨n, u, hafter, hu⟩
    cases n with
    | zero =>
      cases hafter
      exact .inl hu
    | succ n =>
      rw [after_of_inl hstep] at hafter
      exact .inr ⟨n, u, hafter, hu⟩
  · rintro (hs | ⟨n, u, hafter, hu⟩)
    · exact ⟨0, s, rfl, hs⟩
    · exact ⟨n + 1, u, (after_of_inl hstep n).trans hafter, hu⟩

theorem exists_after_of_inr {P : σ → Prop} {s : σ} {result : ω} (hstop : step s = .inr result) :
    (∃ n u, after step n s = .inl u ∧ P u) ↔ P s := by
  constructor
  · rintro ⟨n, u, hafter, hu⟩
    cases n with
    | zero =>
      cases hafter
      exact hu
    | succ n =>
      rw [after_of_inr hstop] at hafter
      cases hafter
  · exact fun hs => ⟨0, s, rfl, hs⟩

/-- A step that stops is the whole of a run. -/
theorem ends_of_inr {s : σ} {result : ω} (hstop : step s = .inr result) : Ends step s := by
  refine Acc.intro s fun t ht => ?_
  have hstep : step s = .inl t := ht
  rw [hstop] at hstep
  cases hstep

theorem ends_of_inl {s t : σ} (hstep : step s = .inl t) (ht : Ends step t) : Ends step s := by
  refine Acc.intro s fun u hu => ?_
  have hnext : step s = .inl u := hu
  rw [hstep] at hnext
  cases hnext
  exact ht

/-- A state comes to an end if some state on its way does. -/
theorem ends_of_after {s t : σ} {n : Nat} (h : after step n s = .inl t) (ht : Ends step t) :
    Ends step s := by
  induction n generalizing s with
  | zero =>
    cases h
    exact ht
  | succ n ih =>
    cases hstep : step s with
    | inl u =>
      rw [after_of_inl hstep] at h
      exact ends_of_inl hstep (ih h)
    | inr result =>
      rw [after_of_inr hstep] at h
      cases h

/-- A run has the result of the step that stops it. -/
theorem run_of_after {s t : σ} {n : Nat} {result : ω} (h : after step n s = .inl t)
    (hstop : step t = .inr result) (ends : Ends step s) : run step s ends = result := by
  induction n generalizing s with
  | zero =>
    cases h
    exact run_of_inr ends hstop
  | succ n ih =>
    cases hstep : step s with
    | inl u =>
      rw [after_of_inl hstep] at h
      rw [run_of_inl ends hstep]
      exact ih h (ends.next hstep)
    | inr result =>
      rw [after_of_inr hstep] at h
      cases h

end Foreach.Iteration
