import Foreach.Provider.Registry
import Mathlib.Tactic.SplitIfs

/-!
What a registry gives after a change.

A registration that succeeds gives its provider for its type from then on, and a removal gives none; all other
types keep theirs. Only a registration that must not replace another provider can fail.
-/

namespace Foreach.Registry

variable {α : Type} {r s : Registry α} {type : String} {p : α} {replace : Bool} {notices : List Notice}

theorem lookup_entry (t : String) (q : α) (rest : List (String × α)) (other : String) :
    ((t, q) :: rest).lookup other = if other = t then some q else rest.lookup other := by
  rw [List.lookup_cons]
  by_cases hother : other = t
  · simp [hother]
  · simp [beq_false_of_ne hother, hother]

theorem lookup_put (entries : List (String × α)) (type : String) (p : α) (other : String) :
    (put entries type p).lookup other = if other = type then some p else entries.lookup other := by
  induction entries with
  | nil => rw [put, lookup_entry]
  | cons entry rest ih =>
    obtain ⟨t, q⟩ := entry
    by_cases ht : t = type
    · rw [put, if_pos ht, lookup_entry, lookup_entry, ht]
      split_ifs <;> rfl
    · rw [put, if_neg ht, lookup_entry, lookup_entry, ih]
      by_cases hother : other = t
      · rw [if_pos hother, if_pos hother, if_neg (hother ▸ ht)]
      · rw [if_neg hother, if_neg hother]

theorem register_eq_ok [BEq α] (h : r.register type p replace = (.ok notices, s)) :
    s = ⟨put r.entries type p⟩ := by
  unfold register at h
  dsimp only at h
  split at h
  next =>
    cases h
    rfl
  next =>
    split_ifs at h <;> cases h <;> rfl

/-- A registration that fails leaves the registry as it was. -/
theorem register_of_error [BEq α] {f : Fault} (h : (r.register type p replace).1 = .error f) :
    r.register type p replace = (.error f, r) := by
  unfold register at h ⊢
  cases hget : r.get? type with
  | none => simp only [hget, reduceCtorEq] at h
  | some q =>
    simp only [hget] at h ⊢
    split_ifs at h ⊢
    cases h
    rfl

/-- After a registration its type has its provider. -/
theorem get?_register [BEq α] (h : r.register type p replace = (.ok notices, s)) (other : String) :
    s.get? other = if other = type then some p else r.get? other := by
  rw [register_eq_ok h]
  exact lookup_put r.entries type p other

/-- A type that has no provider can be registered, whether or not another provider may be replaced. -/
theorem register_of_absent [BEq α] (h : r.get? type = none) (p : α) (replace : Bool) :
    r.register type p replace = (.ok [], ⟨put r.entries type p⟩) := by
  simp only [register, h]

/-- After a removal its type has no provider. -/
theorem get?_unregister (r : Registry α) (type other : String) :
    (r.unregister type).1.get? other = if other = type then none else r.get? other := by
  unfold unregister get?
  dsimp only
  induction r.entries with
  | nil => simp
  | cons entry rest ih =>
    obtain ⟨t, q⟩ := entry
    by_cases ht : t = type
    · rw [List.filter_cons_of_neg (by simp [ht]), ih, lookup_entry, ht]
      split_ifs <;> rfl
    · rw [List.filter_cons_of_pos (by simpa using ht), lookup_entry, lookup_entry, ih]
      by_cases hother : other = t
      · rw [if_pos hother, if_pos hother, if_neg (hother ▸ ht)]
      · rw [if_neg hother, if_neg hother]

end Foreach.Registry
