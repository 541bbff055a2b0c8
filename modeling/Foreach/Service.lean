import Foreach.Definition.Store
import Foreach.Provider.Basic
import Foreach.Provider.Registry

/-!
The service: definitions and the providers that make their items.

A definition and its provider are looked up when a sequence is opened, so it is the latest operations on
either side that count.
-/

namespace Foreach

/-- A registry of providers and a store of definitions. -/
structure Service (σ : Type) where
  registry : Registry (Provider σ)
  store : Store

namespace Service

variable {σ : Type}

def define (s : Service σ) (clock : Clock) (p : Proposal) :
    Except Fault Definition × Service σ × Clock :=
  let (result, store, clock) := s.store.define s.registry.hasKey clock p
  (result, { s with store }, clock)

/-- The definition under a name and its provider. -/
def resolve (s : Service σ) (name : Key) : Except Fault (Definition × Provider σ) :=
  match s.store.require name with
  | .error f => .error f
  | .ok d =>
    match s.registry.get? d.type with
    | none => .error (.dangling name.display d.type)
    | some p => .ok (d, p)

theorem resolve_eq_ok {s : Service σ} {name : Key} {d : Definition} {p : Provider σ}
    (h : s.resolve name = .ok (d, p)) :
    s.store.require name = .ok d ∧ s.registry.get? d.type = some p := by
  unfold resolve at h
  cases hstore : s.store.require name with
  | error f => simp [hstore] at h
  | ok found =>
    cases hregistry : s.registry.get? found.type with
    | none => simp [hstore, hregistry] at h
    | some q =>
      simp only [hstore, hregistry, Except.ok.injEq, Prod.mk.injEq] at h
      obtain ⟨rfl, rfl⟩ := h
      exact ⟨rfl, hregistry⟩

/-- Opens the sequence for a name. -/
def generate (s : Service σ) (name : Key) : Activity σ (Option (Source σ)) :=
  match s.resolve name with
  | .error f => .fail f
  | .ok (d, p) => p.generate d.spec

theorem generate_of_undefined {s : Service σ} {name : Key} (hstore : s.store.get? name = none) :
    s.generate name = .fail (.undefined name.display) := by
  simp only [generate, resolve, Store.require, hstore, Option.elim_none]

theorem generate_of_dangling {s : Service σ} {name : Key} {d : Definition}
    (hstore : s.store.get? name = some d) (hregistry : s.registry.get? d.type = none) :
    s.generate name = .fail (.dangling name.display d.type) := by
  simp only [generate, resolve, Store.require, hstore, hregistry, Option.elim_some]

theorem generate_of_provider {s : Service σ} {name : Key} {d : Definition} {p : Provider σ}
    (hstore : s.store.get? name = some d) (hregistry : s.registry.get? d.type = some p) :
    s.generate name = p.generate d.spec := by
  simp only [generate, resolve, Store.require, hstore, hregistry, Option.elim_some]

/-- Every registered provider opens finite sequences only. -/
def Finite (s : Service σ) : Prop := ∀ entry ∈ s.registry.entries, entry.2.Finite

/-- The service of providers that are known to open finite sequences only. -/
def ofFinite (registry : Registry (FiniteProvider σ)) (store : Store) : Service σ :=
  ⟨registry.map Subtype.val, store⟩

theorem finite_ofFinite (registry : Registry (FiniteProvider σ)) (store : Store) :
    (ofFinite registry store).Finite := by
  intro entry h
  obtain ⟨⟨type, p⟩, -, rfl⟩ := List.mem_map.1 h
  exact p.2

end Service
end Foreach
