import Foreach.Context.Basic
import Foreach.Fault

/-!
Activities: steps of providers and actions, which see and change the shared context beside a state of
their own. A failing activity keeps the changes that it has made.
-/

namespace Foreach

/-- What an activity sees and changes: the shared context, and a state of its own. -/
structure Surroundings (σ : Type) where
  context : Context
  state : σ

/-- A step that gives a result or fails, and leaves other surroundings behind. -/
abbrev Activity (σ α : Type) := Surroundings σ → Except Fault α × Surroundings σ

namespace Activity

variable {σ α β : Type}

/-- Gives a result and changes nothing. -/
def give (a : α) : Activity σ α := fun s => (.ok a, s)

/-- Fails and changes nothing. -/
def fail (f : Fault) : Activity σ α := fun s => (.error f, s)

/-- One activity after another, which sees the result; a failure ends both. -/
def andThen (first : Activity σ α) (next : α → Activity σ β) : Activity σ β := fun s =>
  match first s with
  | (.ok a, s) => next a s
  | (.error f, s) => (.error f, s)

end Activity
end Foreach
