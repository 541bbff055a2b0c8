import Foreach.Number.Decimal
import Mathlib.Tactic.Ring

/-!
Rounding to binary64 is rounding to the nearest number.

The values that lie at most half a step from a number, in its interval, are rounded to it. The interval
reaches down only a quarter of a step from a power of two; there rounding finds the shift of the numbers
below, and carries.
-/

namespace Foreach.Binary64

theorem unit_pos : 0 < unit := by decide +kernel

/-- A quotient at most a half away from a whole number is rounded to it, where a half away only from an
even one. -/
theorem divHalfEven_eq {num den m : Nat} (hden : 0 < den) (hlow : 2 * (m * den) ≤ 2 * num + den)
    (hhigh : 2 * num ≤ 2 * (m * den) + den)
    (hodd : m % 2 = 1 → 2 * (m * den) < 2 * num + den ∧ 2 * num < 2 * (m * den) + den) :
    divHalfEven num den = m := by
  have hsplit : den * (num / den) + num % den = num := Nat.div_add_mod num den
  have hrest : num % den < den := Nat.mod_lt _ hden
  have hle : num / den ≤ m := by
    by_contra hnot
    have hmul : den * (m + 1) ≤ den * (num / den) := Nat.mul_le_mul_left _ (by omega)
    rw [Nat.mul_add, Nat.mul_comm den m] at hmul
    omega
  have hge : m ≤ num / den + 1 := by
    by_contra hnot
    have hmul : den * (num / den + 2) ≤ den * m := Nat.mul_le_mul_left _ (by omega)
    rw [Nat.mul_add, Nat.mul_comm den m] at hmul
    omega
  unfold divHalfEven
  dsimp only
  obtain hm | hm : m = num / den ∨ m = num / den + 1 := by omega
  · rw [Nat.mul_comm den, ← hm] at hsplit
    rw [← hm]
    split
    next => rfl
    next hround => omega
  · have hmul : m * den = den * (num / den) + den := by rw [hm]; ring
    rw [hmul] at hlow hhigh hodd
    split
    next hround => omega
    next => exact hm.symm

theorem Finite.bounds (x : Finite) :
    x.significand < 2 ^ 53 ∧ (x.shift = 0 ∨ 2 ^ 52 ≤ x.significand) ∧ x.shift ≤ 2045 := by
  simpa only [Canonical, Nat.pow_eq] using x.canonical

/-- The step of a number, over `den`. -/
def Finite.step (x : Finite) (den : Nat) : Nat := den * 2 ^ x.shift

/-- How many quarters of a step the interval of a number reaches down. -/
def Finite.descent (x : Finite) : Nat := if x.significand = 2 ^ 52 ∧ x.shift ≠ 0 then 1 else 2

theorem Finite.descent_le (x : Finite) : x.descent ≤ 2 := by
  unfold descent
  split <;> omega

theorem Finite.descent_pos (x : Finite) : 0 < x.descent := by
  unfold descent
  split <;> omega

/-- The interval of a number, counted in quarters of its step. -/
theorem contains_interval_iff {x : Finite} {num den : Nat} :
    (Decimal.interval x).contains num den = true ↔
      4 * (x.significand * x.step den) ≤ num + x.descent * x.step den ∧
      num ≤ 4 * (x.significand * x.step den) + 2 * x.step den ∧
      (x.significand % 2 = 1 → 4 * (x.significand * x.step den) < num + x.descent * x.step den ∧
        num < 4 * (x.significand * x.step den) + 2 * x.step den) := by
  have hvalue : 4 * x.quanta * den = 4 * (x.significand * x.step den) := by
    simp only [Finite.quanta, Finite.step, Nat.pow_eq]
    ring
  have hdown : (if x.significand = Nat.pow 2 52 ∧ x.shift ≠ 0 then Nat.pow 2 x.shift
      else 2 * Nat.pow 2 x.shift) * den = x.descent * x.step den := by
    simp only [Finite.descent, Finite.step, Nat.pow_eq]
    split <;> ring
  have hup : 2 * Nat.pow 2 x.shift * den = 2 * x.step den := by
    simp only [Finite.step, Nat.pow_eq]
    ring
  have hle : x.significand % 2 = 1 → x.descent * x.step den ≤ 4 * (x.significand * x.step den) := by
    intro hodd
    rw [← Nat.mul_assoc]
    exact Nat.mul_le_mul_right _ (by have := x.descent_le; omega)
  unfold Decimal.interval Decimal.Interval.contains
  simp only [Nat.sub_mul, Nat.add_mul, hvalue, hdown, hup]
  by_cases heven : x.significand % 2 = 0
  · simp only [heven, decide_true, if_true, Bool.and_eq_true, decide_eq_true_eq]
    omega
  · simp only [heven, decide_false, Bool.false_eq_true, if_false, Bool.and_eq_true, decide_eq_true_eq]
    omega

/-- The shift that rounding finds for a quotient of 53 binary digits and `shift` more. -/
theorem log2_sub_eq {n shift : Nat} (hlow : shift = 0 ∨ 2 ^ (52 + shift) ≤ n)
    (hhigh : n < 2 ^ (53 + shift)) : n.log2 - 52 = shift := by
  by_cases hn : n = 0
  · subst hn
    have := Nat.pow_pos (n := 52 + shift) (by decide : 0 < 2)
    simp
    omega
  · have hlt : n.log2 < 53 + shift := (Nat.log2_lt hn).2 hhigh
    obtain rfl | hle := hlow
    · omega
    · have hge : 52 + shift ≤ n.log2 := (Nat.le_log2 hn).2 hle
      omega

/-- Rounding a quotient, given the shift that it finds and the significand that it rounds to. -/
theorem ofQuanta_eq {negative : Bool} {num den shift significand : Nat}
    (hshift : (num / den).log2 - 52 = shift)
    (hround : divHalfEven num (den * 2 ^ shift) = significand) {x : Finite}
    (hx : (if significand = 2 ^ 53 then (2 ^ 52, shift + 1) else (significand, shift)) =
      (x.significand, x.shift)) :
    ofQuanta negative num den = .finite { x with negative } := by
  have hround' : divHalfEven num (den * Nat.pow 2 shift) = significand := hround
  have hx' : (if significand = Nat.pow 2 53 then (Nat.pow 2 52, shift + 1) else (significand, shift)) =
      (x.significand, x.shift) := hx
  simp only [ofQuanta, hshift, hround', hx']
  exact dif_pos x.canonical

/-- Rounding finds the shift of a number for the values of its interval that have as many digits. -/
theorem ofQuanta_of_shift {x : Finite} {negative : Bool} {num den : Nat} (hden : 0 < den)
    (h : (Decimal.interval x).contains (4 * num) den = true)
    (hshift : x.shift = 0 ∨ 2 ^ (52 + x.shift) ≤ num / den) :
    ofQuanta negative num den = .finite { x with negative } := by
  obtain ⟨hlow, hhigh, hodd⟩ := contains_interval_iff.1 h
  have hsize := x.bounds.1
  have hstep : 0 < x.step den := Nat.mul_pos hden (Nat.pow_pos (by decide))
  have hdescent := Nat.mul_le_mul_right (x.step den) x.descent_le
  have hq : num / den < 2 ^ (53 + x.shift) := by
    have hmul := Nat.mul_le_mul_right (x.step den) (by omega : x.significand + 1 ≤ 2 ^ 53)
    rw [Nat.add_mul] at hmul
    rw [Nat.div_lt_iff_lt_mul hden]
    calc num < 2 ^ 53 * x.step den := by omega
      _ = 2 ^ (53 + x.shift) * den := by rw [Finite.step]; ring
  have hround : divHalfEven num (x.step den) = x.significand := by
    refine divHalfEven_eq hstep (by omega) (by omega) fun h1 => ?_
    have := hodd h1
    omega
  exact ofQuanta_eq (log2_sub_eq hshift hq) hround (if_neg (by omega))

/-- Only from a power of two does an interval reach down to values with fewer digits; they are rounded
up by a carry. -/
theorem ofQuanta_of_carry {x : Finite} {negative : Bool} {num den : Nat} (hden : 0 < den)
    (h : (Decimal.interval x).contains (4 * num) den = true) (hshift : x.shift ≠ 0)
    (hq : num / den < 2 ^ (52 + x.shift)) :
    ofQuanta negative num den = .finite { x with negative } := by
  obtain ⟨hlow, -, -⟩ := contains_interval_iff.1 h
  have hnormal := x.bounds.2.1
  obtain ⟨s, hs⟩ := Nat.exists_eq_succ_of_ne_zero hshift
  -- Below the power of two the steps are half as long.
  have hhalf : x.step den = 2 * (den * 2 ^ s) := by
    rw [Finite.step, hs, Nat.pow_succ]
    ring
  have hnum : num < 2 ^ 53 * (den * 2 ^ s) := by
    rw [hs, Nat.div_lt_iff_lt_mul hden] at hq
    calc num < 2 ^ (52 + (s + 1)) * den := hq
      _ = 2 ^ 53 * (den * 2 ^ s) := by ring
  have hstep : 0 < den * 2 ^ s := Nat.mul_pos hden (Nat.pow_pos (by decide))
  have hpower : x.significand = 2 ^ 52 := by
    by_contra hne
    have hmul := Nat.mul_le_mul_right (x.step den) (by omega : 2 ^ 52 + 1 ≤ x.significand)
    have hdescent := Nat.mul_le_mul_right (x.step den) x.descent_le
    omega
  have hdescent : x.descent = 1 := by simp [Finite.descent, hpower, hshift]
  rw [hpower, hdescent] at hlow
  have hlog : (num / den).log2 - 52 = s := by
    refine log2_sub_eq (.inr ?_) ?_
    · rw [Nat.le_div_iff_mul_le hden]
      calc 2 ^ (52 + s) * den = 2 ^ 52 * (den * 2 ^ s) := by ring
        _ ≤ num := by omega
    · rw [Nat.div_lt_iff_lt_mul hden]
      calc num < 2 ^ 53 * (den * 2 ^ s) := hnum
        _ = 2 ^ (53 + s) * den := by ring
  have hround : divHalfEven num (den * 2 ^ s) = 2 ^ 53 :=
    divHalfEven_eq hstep (by omega) (by omega) (by omega)
  refine ofQuanta_eq hlog hround ?_
  rw [if_pos rfl, hpower, hs]

/-- The values in the interval of a number are rounded to it. -/
theorem ofQuanta_of_contains {x : Finite} (negative : Bool) {num den : Nat} (hden : 0 < den)
    (h : (Decimal.interval x).contains (4 * num) den = true) :
    ofQuanta negative num den = .finite { x with negative } := by
  by_cases hshift : x.shift = 0 ∨ 2 ^ (52 + x.shift) ≤ num / den
  · exact ofQuanta_of_shift hden h hshift
  · exact ofQuanta_of_carry hden h (by omega) (by omega)

end Foreach.Binary64
