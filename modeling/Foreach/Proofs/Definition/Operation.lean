import Foreach.Definition.Manifest
import Foreach.Proofs.Definition.Store

/-!
Changes of a store in memory.

A change makes a definition or takes one out. A list of changes is made one after another, and the
entries of a manifest are such a list. On stores that mirror each other the same changes succeed, and
they stay mirrored.
-/

namespace Foreach

/-- A change of a store. -/
inductive Operation where
  | define (p : Proposal)
  | delete (name : Key)

namespace Operation

variable {registered : Key → Bool} {s t u : Store} {clock clock' : Clock} {o : Operation}
  {os : List Operation}

/-- The store after a change, and the clock. -/
def apply (registered : Key → Bool) (s : Store) (clock : Clock) : Operation → Except Fault (Store × Clock)
  | .define p =>
    match s.define registered clock p with
    | (.error f, _) => .error f
    | (.ok _, s, clock) => .ok (s, clock)
  | .delete name => .ok ((s.delete name).1, clock)

/-- The store after all of the changes. -/
def applyAll (registered : Key → Bool) : Store → Clock → List Operation → Except Fault Store
  | s, _, [] => .ok s
  | s, clock, o :: os =>
    match o.apply registered s clock with
    | .error f => .error f
    | .ok (s, clock) => applyAll registered s clock os

/-- A definition is only made under a text. -/
def Textual : Operation → Prop
  | .define p => ∃ name, p.name = .text name
  | .delete _ => True

theorem apply_define_eq_ok {p : Proposal} (h : apply registered s clock (.define p) = .ok (t, clock')) :
    ∃ d, s.define registered clock p = (.ok d, t, clock') := by
  rw [apply] at h
  split at h
  next => cases h
  next d next after hdefine =>
    cases h
    exact ⟨d, hdefine⟩

theorem named_apply (hs : s.Named) (ho : o.Textual) (h : o.apply registered s clock = .ok (t, clock')) :
    t.Named := by
  cases o with
  | define p =>
    obtain ⟨name, hname⟩ := ho
    obtain ⟨d, hdefine⟩ := apply_define_eq_ok h
    exact hs.define hname hdefine
  | delete name =>
    cases h
    exact hs.delete name

theorem mirrors_apply (hst : s.Mirrors t) (h : o.apply registered s clock = .ok (u, clock')) :
    ∃ u', o.apply registered t clock = .ok (u', clock') ∧ u.Mirrors u' := by
  cases o with
  | define p =>
    obtain ⟨d, hdefine⟩ := apply_define_eq_ok h
    obtain ⟨u', hdefine', hu⟩ := hst.define hdefine
    refine ⟨u', ?_, hu⟩
    rw [apply, hdefine']
  | delete name =>
    cases h
    exact ⟨_, rfl, hst.delete name⟩

theorem applyAll_cons_eq_ok (h : applyAll registered s clock (o :: os) = .ok t) :
    ∃ next middle, o.apply registered s clock = .ok (next, middle) ∧
      applyAll registered next middle os = .ok t := by
  rw [applyAll] at h
  split at h
  next => cases h
  next next middle hnext => exact ⟨next, middle, hnext, h⟩

theorem named_applyAll (hs : s.Named) (hos : ∀ o ∈ os, o.Textual)
    (h : applyAll registered s clock os = .ok t) : t.Named := by
  induction os generalizing s clock with
  | nil =>
    cases h
    exact hs
  | cons o os ih =>
    obtain ⟨ho, hrest⟩ := List.forall_mem_cons.1 hos
    obtain ⟨next, middle, hnext, h⟩ := applyAll_cons_eq_ok h
    exact ih (named_apply hs ho hnext) hrest h

theorem mirrors_applyAll (hst : s.Mirrors t) (h : applyAll registered s clock os = .ok u) :
    ∃ u', applyAll registered t clock os = .ok u' ∧ u.Mirrors u' := by
  induction os generalizing s t clock with
  | nil =>
    cases h
    exact ⟨t, rfl, hst⟩
  | cons o os ih =>
    obtain ⟨next, middle, hnext, h⟩ := applyAll_cons_eq_ok h
    obtain ⟨next', hnext', hmirrors⟩ := mirrors_apply hst hnext
    obtain ⟨u', hu', hu⟩ := ih hmirrors h
    refine ⟨u', ?_, hu⟩
    rw [applyAll, hnext']
    exact hu'

end Operation

namespace Manifest

variable {registered : Key → Bool} {s t : Store} {clock clock' : Clock} {entries : List Mapping}

theorem textual_of_proposal {entry : Mapping} {p : Proposal} (h : proposal entry = .ok p) :
    (Operation.define p).Textual := by
  unfold proposal at h
  split at h
  next name type _ _ =>
    obtain ⟨spec, -, rfl⟩ := map_eq_ok h
    exact ⟨name, rfl⟩
  next => cases h

/-- Entries that are all defined are changes that are all made. -/
theorem applyAll_of_defineAll (h : defineAll registered s clock entries = (.ok t, clock')) :
    ∃ ps, entries.mapM proposal = .ok ps ∧
      Operation.applyAll registered s clock (ps.map .define) = .ok t := by
  induction entries generalizing s clock with
  | nil =>
    cases h
    exact ⟨[], rfl, rfl⟩
  | cons entry entries ih =>
    rw [defineAll] at h
    split at h
    next => cases h
    next p hp =>
      split at h
      next => cases h
      next d next middle hdefine =>
        obtain ⟨ps, hps, happly⟩ := ih h
        refine ⟨p :: ps, ?_, ?_⟩
        · rw [List.mapM_cons, hp, hps]
          rfl
        · simp only [List.map_cons, Operation.applyAll, Operation.apply, hdefine, happly]

theorem textual_of_proposals {ps : List Proposal} (h : entries.mapM proposal = .ok ps) :
    ∀ o ∈ ps.map Operation.define, o.Textual := by
  have hall := mapM_eq_ok h
  clear h
  induction hall with
  | nil => exact List.forall_mem_nil _
  | cons hp _ ih => exact List.forall_mem_cons.2 ⟨textual_of_proposal hp, ih⟩

end Manifest
end Foreach
