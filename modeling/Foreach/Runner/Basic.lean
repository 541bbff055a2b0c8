import Foreach.Context.Activity

/-!
Actions: what is run for the text of each item.
-/

namespace Foreach

/-- How a process ends. -/
inductive Exit where
  | exited (status : Nat)
  | killed (signal : Nat)
  deriving DecidableEq

/-- What an action gave for a text. -/
structure ActionResult where
  text : String
  output : String
  returncode : Int
  metadata : Mapping

/-- An action, by name. -/
structure Runner (ρ : Type) where
  name : String
  invoke : String → Activity ρ ActionResult

namespace Runner

/-- No failure of the action is a hard stop. -/
def NeverStops {ρ : Type} (runner : Runner ρ) : Prop :=
  ∀ text s f, (runner.invoke text s).1 = .error f → f.isOrdinary = true

/-- Says each text as a user's message and gives it back as its own output. -/
def noop (ρ : Type) : Runner ρ where
  name := "noop"
  invoke text s :=
    (.ok ⟨text, text, 0, []⟩,
      { s with context := s.context.addMessage (.text "user") (.text text) [] })

end Runner
end Foreach
