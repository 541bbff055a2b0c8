import Foreach.Batch.Ending
import Foreach.Script.Provider

/-!
Rehearsals: services whose providers are all scripted.

Scripts come to an end, so every batch over a rehearsal does.
-/

namespace Foreach.Script

/-- Scripted providers and definitions. -/
structure Rehearsal where
  registry : Registry (FiniteProvider Stage)
  store : Store

namespace Rehearsal

/-- A rehearsal with nothing registered and nothing defined. -/
def empty : Rehearsal := ⟨.empty, .empty⟩

def service (r : Rehearsal) : Service Stage := .ofFinite r.registry r.store

/-- Registers the script with this number for a type. -/
def register (r : Rehearsal) (type : String) (p : Provided) (script : Nat) (replace : Bool) :
    Except Fault (List Notice) × Rehearsal :=
  let (result, registry) :=
    r.registry.register type ⟨provider p script, provider_finite p script⟩ replace
  (result, { r with registry })

/-- Registers scripts, numbered from `first` on, each for its own type. -/
def registerAll (r : Rehearsal) (first : Nat) : List Provided → Rehearsal × List Notice
  | [] => (r, [])
  | p :: rest =>
    match r.register p.type p first true with
    | (.error _, r) => r.registerAll (first + 1) rest
    | (.ok notices, r) =>
      let (r, more) := r.registerAll (first + 1) rest
      (r, notices ++ more)

/-- Makes definitions; one that fails is left out. -/
def defineAll (r : Rehearsal) (clock : Clock) : List Proposal → Rehearsal
  | [] => r
  | p :: rest =>
    let (_, service, clock) := r.service.define clock p
    defineAll { r with store := service.store } clock rest

/-- Takes a type out; tells whether it was there. -/
def unregister (r : Rehearsal) (type : String) : Rehearsal × Bool :=
  let (registry, there) := r.registry.unregister type
  ({ r with registry }, there)

/-- Runs a batch. -/
def execute {ρ : Type} (r : Rehearsal) (job : Batch.Job ρ) (start : Batch.Start Stage ρ) :
    Batch.Outcome Stage ρ :=
  Batch.execute job r.service start
    (Batch.Job.ends_of_finite (Service.finite_ofFinite r.registry r.store) job _)

end Rehearsal
end Foreach.Script
