import Foreach.Text.Half
import Mathlib.Data.List.Lex

/-!
The order of texts.

Texts are put in order by their codes, from the first one on. No two texts have the same codes, so texts that
are different and in order are in strict order.
-/

namespace Foreach.Text

theorem codeOf_injective : Function.Injective codeOf := by
  intro c d h
  have hc := c.valid
  have hd := d.valid
  apply Char.toNat_inj.1
  simp only [UInt32.isValidChar, Nat.isValidChar] at hc hd
  change c.toNat < _ ∨ _ < c.toNat ∧ c.toNat < _ at hc
  change d.toNat < _ ∨ _ < d.toNat ∧ d.toNat < _ at hd
  unfold codeOf isHalf halfShift at h
  simp only [decide_eq_true_eq] at h
  -- A half has the code of no character, since these leave a gap for them.
  split_ifs at h <;> omega

theorem codes_injective : Function.Injective codes := by
  intro a b h
  exact String.toList_injective (List.map_injective_iff.2 codeOf_injective h)

theorem codesPrecede_iff {ms ns : List Nat} :
    codesPrecede ms ns = true ↔ ms = ns ∨ List.Lex (· < ·) ms ns := by
  induction ms generalizing ns with
  | nil => cases ns <;> simp [codesPrecede]
  | cons m ms ih =>
    cases ns with
    | nil => simp [codesPrecede]
    | cons n ns =>
      simp only [codesPrecede, Bool.or_eq_true, decide_eq_true_eq, Bool.and_eq_true, beq_iff_eq, ih, List.cons.injEq]
      constructor
      · rintro (hlt | ⟨rfl, rfl | hlex⟩)
        · exact .inr (.rel hlt)
        · exact .inl ⟨rfl, rfl⟩
        · exact .inr (.cons hlex)
      · rintro (⟨rfl, rfl⟩ | hlex)
        · exact .inr ⟨rfl, .inl rfl⟩
        · cases hlex with
          | rel hlt => exact .inl hlt
          | cons hrest => exact .inr ⟨rfl, .inr hrest⟩

theorem precedes_iff_le {a b : String} : precedes a b = true ↔ codes a ≤ codes b := codesPrecede_iff

/-- Sorted entries under different names are in the strict order of the codes of these. -/
theorem pairwise_codes_mergeSort {α : Type} {entries : List (String × α)} (h : (entries.map (·.1)).Nodup) :
    ((entries.mergeSort fun (a, _) (b, _) => precedes a b).map (·.1)).Pairwise
      fun a b => List.Lex (· < ·) (codes a) (codes b) := by
  have htrans : ∀ a b c : String × α, precedes a.1 b.1 = true → precedes b.1 c.1 = true →
      precedes a.1 c.1 = true := by
    intro a b c hab hbc
    rw [precedes_iff_le] at hab hbc ⊢
    exact hab.trans hbc
  have htotal : ∀ a b : String × α, (precedes a.1 b.1 || precedes b.1 a.1) = true := by
    intro a b
    rw [Bool.or_eq_true, precedes_iff_le, precedes_iff_le]
    exact le_total _ _
  have hsorted := List.pairwise_mergeSort htrans htotal entries
  have hnodup := ((List.mergeSort_perm entries fun a b => precedes a.1 b.1).map (·.1)).nodup_iff.2 h
  rw [List.Nodup, List.pairwise_map] at hnodup
  rw [List.pairwise_map]
  apply (hsorted.and hnodup).imp
  rintro a b ⟨hle, hne⟩
  rcases codesPrecede_iff.1 hle with heq | hlt
  · exact absurd (codes_injective heq) hne
  · exact hlt

end Foreach.Text
