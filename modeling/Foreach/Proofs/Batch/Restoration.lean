import Foreach.Batch.Ending
import Foreach.Proofs.Batch.Replay
import Foreach.Script.Provider
import Foreach.Script.Runner

/-!
A run leaves the context as it found it.

The context is put back after the closing of the sequence, which is the last that can change it, and the
way to that point is the same for every result.
-/

namespace Foreach.Batch

variable {σ ρ : Type}

/-- A run that cannot even be logged has not touched the context. -/
theorem Stop.unbegun_context {job : Job ρ} {start : Start σ ρ} {s : Stop σ ρ}
    (hbegin : job.begin start = .inr s) : s.unbegun.context = start.context := by
  unfold Job.begin Loop.log at hbegin
  dsimp only at hbegin
  split at hbegin
  next => cases hbegin
  next =>
    cases hbegin
    rfl

/-- Whatever the provider, the action, the token and the observer do, in whatever way the run ends, the
context is the one that the run began with: its variables and its messages. No failure is ruled out, and
nothing is assumed but that the run does end. -/
theorem execute_context (job : Job ρ) (service : Service σ) (start : Start σ ρ)
    (ends : job.Ends service start) :
    (execute job service start ends).context = start.context := by
  unfold execute
  split
  next s hbegin => exact Stop.unbegun_context hbegin
  next => rfl

/-- A script that changes the context with every step, is stopped hard in the middle, and cannot be
closed without changing it once more and failing. -/
def leaky : Script.Provided where
  id := "leaky"
  type := "leaky"
  mode := .closable
  steps := [.change (.rebind (.map [(.text "left", .int 1)])), .yield .null (.map []),
    .change .reset, .raise (.hardStop "stopped")]
  closing := [.change (.addMessage (.text "provider") (.text "left") []),
    .raise (.system "cleanup failed")]

/-- A job whose action empties the context. -/
def leakyJob : Job Unit where
  iterable := "leaky"
  template := "go"
  runner := Script.runner Unit ⟨"action", [.reset], []⟩
  observer := .idle
  cancel := none
  now := .int 0

theorem execute_context_leaky :
    ∃ ends : leakyJob.Ends (Service.only "leaky" (Script.provider leaky 0))
        ⟨⟨[(.text "kept", .int 7)], []⟩, .ofScripts 1, ()⟩,
      (execute leakyJob (Service.only "leaky" (Script.provider leaky 0))
        ⟨⟨[(.text "kept", .int 7)], []⟩, .ofScripts 1, ()⟩ ends).context =
          ⟨[(.text "kept", .int 7)], []⟩ :=
  ⟨Job.ends_of_finite (Service.only_finite "leaky" (Script.provider_finite leaky 0)) leakyJob _,
    execute_context _ _ _ _⟩

end Foreach.Batch
