import Foreach.Proofs.Text.Digits
import Foreach.Text.Style
import Foreach.Text.Utf8
import Mathlib.Data.List.TakeWhile

/-!
Texts in which no half of a character stands: those that some bytes encode.
-/

namespace Foreach

/-- No half of a character stands in the text. -/
def Text.Whole (cs : List Char) : Prop := ∀ c ∈ cs, isHalf c = false

instance (cs : List Char) : Decidable (Text.Whole cs) :=
  decidable_of_iff (cs.all (fun c => !Text.isHalf c) = true) (by simp [Text.Whole])

theorem Utf8.encode?_of_whole {cs : List Char} (h : Text.Whole cs) : encode? cs = .ok (encode cs) := by
  have hnone : (cs.dropWhile fun c => !Text.isHalf c) = [] :=
    List.dropWhile_eq_nil_iff.2 fun c hc => by rw [h c hc]; rfl
  simp only [encode?, hnone]

theorem Utf8.encode?_eq_ok {cs : List Char} {bytes : List UInt8} (h : encode? cs = .ok bytes) :
    bytes = encode cs ∧ Text.Whole cs := by
  unfold encode? at h
  split at h
  next hnone =>
    cases h
    refine ⟨rfl, fun c hc => ?_⟩
    simpa using List.dropWhile_eq_nil_iff.1 hnone c hc
  next => cases h

namespace Text

theorem whole_append {cs ds : List Char} : Whole (cs ++ ds) ↔ Whole cs ∧ Whole ds :=
  List.forall_mem_append

theorem whole_toList_append {s t : String} : Whole (s ++ t).toList ↔ Whole s.toList ∧ Whole t.toList := by
  rw [String.toList_append, whole_append]

theorem whole_cons {c : Char} {cs : List Char} : Whole (c :: cs) ↔ isHalf c = false ∧ Whole cs :=
  List.forall_mem_cons

theorem isHalf_of_toNat_lt {c : Char} (h : c.toNat < 0xd800) : isHalf c = false := by
  refine decide_eq_false fun hhalf => ?_
  simp only [halfShift] at hhalf
  omega

theorem whole_digits {ds : List Char} (h : AllDigits ds) : Whole ds := by
  intro c hc
  have hdigit : c.toNat ≤ 57 := by
    have hall := h c hc
    simp only [isDigit, Bool.and_eq_true, decide_eq_true_eq] at hall
    exact hall.2
  exact isHalf_of_toNat_lt (by omega)

theorem whole_padded (width n : Nat) : Whole (padded 10 width n) :=
  whole_digits (allDigits_padded width n)

theorem whole_intNumeral (n : Int) : Whole (intNumeral n) := by
  have hdigits : Whole (Nat.toDigits 10 n.natAbs) := whole_digits (allDigits_toDigits _)
  unfold intNumeral
  split
  · exact whole_cons.2 ⟨by decide, hdigits⟩
  · exact hdigits

theorem whole_toString (n : Nat) : Whole (toString n).toList := by
  have htext : (toString n).toList = Nat.toDigits 10 n := by
    simp
  rw [htext]
  exact whole_digits (allDigits_toDigits n)

theorem mem_of_mem_dropMarks {n : Nat} {cs : List Char} {c : Char} (h : c ∈ dropMarks n cs) : c ∈ cs := by
  fun_induction dropMarks n cs with
  | case1 => exact h
  | case2 n first rest ih => exact List.mem_cons_of_mem _ (ih h)
  | case3 first rest hmark ih =>
    rcases List.mem_cons.1 h with rfl | hrest
    · exact List.mem_cons_self
    · exact List.mem_cons_of_mem _ (ih hrest)
  | case4 first rest n hmark ih => exact List.mem_cons_of_mem _ (ih h)

theorem isHalf_of_isStyleParameter {c : Char} (h : isStyleParameter c = true) : isHalf c = false := by
  refine isHalf_of_toNat_lt ?_
  simp only [isStyleParameter, Bool.or_eq_true, decide_eq_true_eq] at h
  rcases h with (hdigit | rfl) | rfl
  · simp only [Char.isDigit, Bool.and_eq_true, decide_eq_true_eq] at hdigit
    exact lt_of_le_of_lt (UInt32.le_iff_toNat_le.1 hdigit.2) (by decide)
  · decide
  · decide

theorem isHalf_of_isAlpha {c : Char} (h : c.isAlpha = true) : isHalf c = false := by
  refine isHalf_of_toNat_lt ?_
  have hcase : (c.isUpper || c.isLower) = true := h
  rcases Bool.or_eq_true_iff.1 hcase with hupper | hlower
  · have hrange : c.val ≥ 'A'.val ∧ c.val ≤ 'Z'.val := of_decide_eq_true hupper
    exact lt_of_le_of_lt (UInt32.le_iff_toNat_le.1 hrange.2) (by decide)
  · have hrange : (decide (c.val ≥ 'a'.val) && decide (c.val ≤ 'z'.val)) = true := hlower
    have hle : c.val ≤ 'z'.val := of_decide_eq_true (Bool.and_eq_true_iff.1 hrange).2
    exact lt_of_le_of_lt (UInt32.le_iff_toNat_le.1 hle) (by decide)

/-- No half stands in a mark of style. -/
theorem whole_take_markLength (cs : List Char) : Whole (cs.take (markLength cs)) := by
  unfold markLength
  split
  next rest =>
    dsimp only
    split
    next c more hdrop =>
      split
      next halpha =>
        have hparameters : Whole (rest.takeWhile isStyleParameter) := fun d hd =>
          isHalf_of_isStyleParameter (List.mem_takeWhile_imp hd)
        have hrest := List.prefix_iff_eq_append.1 (List.takeWhile_prefix isStyleParameter (l := rest))
        rw [hdrop] at hrest
        generalize rest.takeWhile isStyleParameter = parameters at hparameters hrest
        have hmark : ('\x1b' :: '[' :: rest).take (parameters.length + 3) = '\x1b' :: '[' :: (parameters ++ [c]) := by
          simp [← hrest, List.take_append, List.take_of_length_le]
        rw [hmark, whole_cons, whole_cons, whole_append]
        exact ⟨by decide, by decide, hparameters, List.forall_mem_singleton.2 (isHalf_of_isAlpha halpha)⟩
      next => exact List.forall_mem_nil _
    next => exact List.forall_mem_nil _
  next => exact List.forall_mem_nil _

/-- A half that stands behind the characters that are left out is kept. -/
theorem mem_dropMarks_of_isHalf {n : Nat} {cs : List Char} {c : Char} (hhalf : isHalf c = true)
    (h : c ∈ cs.drop n) : c ∈ dropMarks n cs := by
  fun_induction dropMarks n cs with
  | case1 => simp at h
  | case2 n first rest ih => exact ih h
  | case3 first rest hmark ih =>
    rcases List.mem_cons.1 h with rfl | hrest
    · exact List.mem_cons_self
    · exact List.mem_cons_of_mem _ (ih hrest)
  | case4 first rest n hmark ih =>
    refine ih ?_
    have hsplit := List.take_append_drop (n + 1) (first :: rest)
    rw [List.drop_zero, ← hsplit, List.mem_append] at h
    rcases h with hmarked | hleft
    · have hwhole := whole_take_markLength (first :: rest) c (hmark ▸ hmarked)
      rw [hhalf] at hwhole
      cases hwhole
    · exact hleft

/-- Leaving out the marks of style neither brings a half in nor takes one out. -/
theorem whole_unstyled_iff {s : String} : Whole (unstyled s).toList ↔ Whole s.toList := by
  rw [unstyled, String.toList_ofList]
  refine ⟨fun h c hc => ?_, fun h c hc => h c (mem_of_mem_dropMarks hc)⟩
  by_contra hnot
  have hhalf : isHalf c = true := by simpa using hnot
  rw [h c (mem_dropMarks_of_isHalf hhalf hc)] at hhalf
  cases hhalf

end Text
end Foreach
