import Foreach.Provider.Catalogue
import Foreach.Proofs.Definition.Acceptance
import Foreach.Proofs.Definition.Store
import Foreach.Proofs.Provider.Registry

/-!
Loading providers into a registry.

All providers are found before the first is registered, and a registration that may replace others never
fails. So loading leaves the registry alone if a provider cannot be found, and otherwise registers all of
them: each type has the last provider found for it.
-/

namespace Foreach.Catalogue

variable {α : Type} {c : Catalogue α}

/-! ### Finding -/

theorem discoverAll_eq_mapM (c : Catalogue α) (serial : Nat) (installed : List Installed) :
    c.discoverAll serial installed = (installed.zipIdx serial).mapM fun i => c.discover i.2 i.1 := by
  induction installed generalizing serial with
  | nil => rfl
  | cons i rest ih =>
    rw [List.zipIdx_cons, List.mapM_cons, discoverAll, ih]
    cases c.discover serial i with
    | error e => rfl
    | ok p =>
      cases (rest.zipIdx (serial + 1)).mapM fun i => c.discover i.2 i.1 <;> rfl

theorem resolveAll_eq_mapM (c : Catalogue α) (serial : Nat) (entrypoints : List String) :
    c.resolveAll serial entrypoints = (entrypoints.zipIdx serial).mapM fun e => c.resolve e.2 e.1 := by
  induction entrypoints generalizing serial with
  | nil => rfl
  | cons e rest ih =>
    rw [List.zipIdx_cons, List.mapM_cons, resolveAll, ih]
    cases c.resolve serial e with
    | error f => rfl
    | ok p =>
      cases (rest.zipIdx (serial + 1)).mapM fun e => c.resolve e.2 e.1 <;> rfl

/-- These are the providers, with their types, of all entry points: first of those installed, then of those
asked for, one for each and in their order. -/
def Finds (c : Catalogue α) (installed : List Installed) (entrypoints : List String)
    (found : List (String × α)) : Prop :=
  ∃ discovered resolved, found = discovered ++ resolved ∧
    List.Forall₂ (fun i p => c.discover i.2 i.1 = .ok p) installed.zipIdx discovered ∧
    List.Forall₂ (fun e p => c.resolve e.2 e.1 = .ok p) (entrypoints.zipIdx installed.length) resolved

/-- Some entry point has no provider, which is a failure. -/
def Fails (c : Catalogue α) (installed : List Installed) (entrypoints : List String) (f : Fault) : Prop :=
  (∃ i ∈ installed.zipIdx, ∃ notices, c.discover i.2 i.1 = .error (f, notices)) ∨
    ∃ e ∈ entrypoints.zipIdx installed.length, c.resolve e.2 e.1 = .error f

variable {installed : List Installed} {entrypoints : List String} {found : List (String × α)} {f : Fault}
  {notices : List Notice}

theorem finds_of_providers (h : c.providers installed entrypoints = .ok found) :
    c.Finds installed entrypoints found := by
  unfold providers at h
  split at h
  next => cases h
  next discovered hdiscovered =>
    rw [discoverAll_eq_mapM] at hdiscovered
    split at h
    next => cases h
    next resolved hresolved =>
      rw [resolveAll_eq_mapM] at hresolved
      exact ⟨discovered, resolved, (Except.ok.inj h).symm, mapM_eq_ok hdiscovered, mapM_eq_ok hresolved⟩

theorem fails_of_providers (h : c.providers installed entrypoints = .error (f, notices)) :
    c.Fails installed entrypoints f := by
  unfold providers at h
  split at h
  next e hdiscovered =>
    cases h
    rw [discoverAll_eq_mapM] at hdiscovered
    obtain ⟨i, hi, hdiscover⟩ := exists_of_mapM_error hdiscovered
    exact .inl ⟨i, hi, notices, hdiscover⟩
  next =>
    split at h
    next g hresolved =>
      cases h
      rw [resolveAll_eq_mapM] at hresolved
      exact .inr (exists_of_mapM_error hresolved)
    next => cases h

/-! ### Registering -/

variable [BEq α]

/-- A registration that may replace another provider goes through. -/
theorem exists_register (r : Registry α) (type : String) (p : α) :
    ∃ after notices, r.register type p true = (.ok notices, after) := by
  cases hget : r.get? type with
  | none => exact ⟨_, _, Registry.register_of_absent hget p true⟩
  | some q =>
    cases hsame : q == p with
    | true => exact ⟨_, _, by simp only [Registry.register, hget, hsame]; rfl⟩
    | false => exact ⟨_, _, by simp only [Registry.register, hget, hsame]; rfl⟩

/-- All providers are registered, and of several for one type the last stays. -/
theorem registerAll_ok (r : Registry α) (found : List (String × α)) :
    ∃ after notices, registerAll r found = (.ok (found.map (·.1)), after, notices) ∧
      ∀ type, after.get? type = (found.reverse.lookup type).or (r.get? type) := by
  induction found generalizing r with
  | nil => exact ⟨r, [], rfl, fun type => rfl⟩
  | cons entry rest ih =>
    obtain ⟨t, p⟩ := entry
    obtain ⟨next, notices, hregister⟩ := exists_register r t p
    obtain ⟨after, more, hrest, hget⟩ := ih next
    refine ⟨after, notices ++ more, ?_, fun type => ?_⟩
    · simp only [registerAll, hregister, hrest]
      rfl
    · have hthis : next.get? type = (List.lookup type [(t, p)]).or (r.get? type) := by
        rw [Registry.get?_register hregister, Registry.lookup_entry]
        by_cases ht : type = t
        · simp only [if_pos ht, Option.some_or]
        · simp only [if_neg ht, List.lookup_nil, Option.none_or]
      rw [hget, hthis, List.reverse_cons, List.lookup_append, Option.or_assoc]

/-- Loading is all or nothing. Either some entry point, installed or asked for, has no provider: then loading
fails with that failure and leaves the registry as it was. Or all of them have: then loading tells their types
in order, and after it every type has the last provider found for it, or, if none is, what it had. -/
theorem load_all_or_nothing (c : Catalogue α) (r : Registry α) (installed : List Installed)
    (entrypoints : List String) :
    (∃ f notices, c.Fails installed entrypoints f ∧
        c.loadInto r installed entrypoints = (.error f, r, notices)) ∨
      ∃ found after notices, c.Finds installed entrypoints found ∧
        c.loadInto r installed entrypoints = (.ok (found.map (·.1)), after, notices) ∧
        ∀ type, after.get? type = (found.reverse.lookup type).or (r.get? type) := by
  cases hproviders : c.providers installed entrypoints with
  | error failure =>
    obtain ⟨f, notices⟩ := failure
    refine .inl ⟨f, notices, fails_of_providers hproviders, ?_⟩
    simp only [loadInto, hproviders]
  | ok found =>
    obtain ⟨after, notices, hregister, hget⟩ := registerAll_ok r found
    refine .inr ⟨found, after, notices, finds_of_providers hproviders, ?_, hget⟩
    simp only [loadInto, hproviders, hregister]

end Foreach.Catalogue
