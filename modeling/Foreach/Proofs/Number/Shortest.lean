import Foreach.Proofs.Number.Rounding
import Mathlib.Data.Rat.Cast.Order
import Mathlib.Tactic.Linarith
import Mathlib.Tactic.Positivity
import Mathlib.Tactic.FieldSimp
import Mathlib.Tactic.NormNum
import Mathlib.Algebra.Order.Field.Basic
import Mathlib.Algebra.Order.Field.Power

/-!
The shortest decimal of a number reads back to it.

A number with 53 binary digits is singled out by 17 decimal ones: on the grid of that many digits two
neighbours are nearer to each other than the ends of the number's interval, so that one of them lies in
it. What lies in the interval of a number is rounded to it, however it is written.
-/

namespace Foreach.Decimal

open Binary64 (ofQuanta unit)

/-! ### Powers of ten -/

theorem scale_pos (k : Int) : 0 < (scale k).1 ∧ 0 < (scale k).2 := by
  unfold scale
  split <;> simp [Nat.pow_eq]

theorem scale_eq (k : Int) : ((scale k).1 : ℚ) / (scale k).2 = 10 ^ k := by
  unfold scale
  split
  next hk =>
    obtain ⟨n, rfl⟩ := Int.eq_ofNat_of_zero_le hk
    simp
  next hk =>
    obtain ⟨n, hn⟩ := Int.eq_ofNat_of_zero_le (by omega : 0 ≤ -k)
    obtain rfl : k = -(n : Int) := by omega
    simp

theorem digitCount_pos {n : Nat} (hn : n ≠ 0) : 0 < digitCount n := by
  rw [digitCount, if_neg hn]
  exact Nat.length_toDigits_pos

theorem lt_pow_digitCount (n : Nat) : (n : ℚ) < 10 ^ (digitCount n : Int) := by
  by_cases hn : n = 0
  · simp [hn, digitCount]
  · have hlt : n < 10 ^ digitCount n := by
      rw [digitCount, if_neg hn]
      exact (Nat.length_toDigits_le_iff (by decide) Nat.length_toDigits_pos).1 (Nat.le_refl _)
    exact_mod_cast hlt

theorem pow_digitCount_le {n : Nat} (hn : n ≠ 0) : (10 : ℚ) ^ ((digitCount n : Int) - 1) ≤ n := by
  obtain ⟨k, hk⟩ := Nat.exists_eq_succ_of_ne_zero (digitCount_pos hn).ne'
  have hle : 10 ^ k ≤ n := by
    obtain rfl | hpos := Nat.eq_zero_or_pos k
    · exact Nat.pos_of_ne_zero hn
    · by_contra hlt
      have := (Nat.length_toDigits_le_iff (b := 10) (by decide) hpos).2 (by omega : n < 10 ^ k)
      rw [digitCount, if_neg hn] at hk
      omega
  have hexp : (digitCount n : Int) - 1 = k := by omega
  rw [hexp]
  exact_mod_cast hle

/-- The leading digit of a number stands for no more than the number. -/
theorem pow_leadingExponent_le {num den : Nat} (hnum : num ≠ 0) (hden : den ≠ 0) :
    (10 : ℚ) ^ leadingExponent num den * den ≤ num := by
  have hden' : (0 : ℚ) < den := by exact_mod_cast Nat.pos_of_ne_zero hden
  unfold leadingExponent
  dsimp only
  generalize hguess : (digitCount num : Int) - digitCount den = guess
  split
  next hle =>
    have hdown : (0 : ℚ) < (scale guess).2 := by exact_mod_cast (scale_pos guess).2
    have hle' : ((scale guess).1 : ℚ) * den ≤ num * (scale guess).2 := by exact_mod_cast hle
    rw [← scale_eq, div_mul_eq_mul_div, div_le_iff₀ hdown]
    exact hle'
  next =>
    calc (10 : ℚ) ^ (guess - 1) * den
        ≤ 10 ^ (guess - 1) * 10 ^ (digitCount den : Int) := by
          gcongr
          exact (lt_pow_digitCount den).le
      _ = 10 ^ ((digitCount num : Int) - 1) := by
          rw [← zpow_add₀ (by norm_num)]
          congr 1
          omega
      _ ≤ num := pow_digitCount_le hnum

/-! ### Values -/

/-- The number that a decimal is. -/
def value (d : Decimal) : ℚ := d.coefficient * 10 ^ d.exponent

theorem value_eq_zero_iff {d : Decimal} : d.value = 0 ↔ d.coefficient = 0 := by
  have hpos : (10 : ℚ) ^ d.exponent ≠ 0 := (zpow_pos (by norm_num) _).ne'
  simp [value, hpos]

theorem value_nonneg (d : Decimal) : 0 ≤ d.value := by
  unfold value
  positivity

theorem value_trimZeros (d : Decimal) (fuel : Nat) : (d.trimZeros fuel).value = d.value := by
  induction fuel generalizing d with
  | zero => rfl
  | succ fuel ih =>
    rw [trimZeros]
    split
    next hdiv =>
      obtain ⟨c, hc⟩ := Nat.dvd_of_mod_eq_zero hdiv
      rw [ih]
      simp only [value, hc, Nat.mul_div_cancel_left c (by decide : 0 < 10)]
      rw [zpow_add_one₀ (by norm_num)]
      push_cast
      ring
    next => rfl

/-- A value in quarter quanta lies in an interval. -/
def Interval.Holds (i : Interval) (v : ℚ) : Prop :=
  if i.closed then i.low ≤ v ∧ v ≤ i.high else i.low < v ∧ v < i.high

theorem Interval.contains_iff {i : Interval} {num den : Nat} (hden : 0 < den) :
    i.contains num den = true ↔ i.Holds (num / den) := by
  have hden' : (0 : ℚ) < den := by exact_mod_cast hden
  unfold contains Holds
  split
  · rw [le_div_iff₀ hden', div_le_iff₀ hden', Bool.and_eq_true, decide_eq_true_eq, decide_eq_true_eq]
    norm_cast
  · rw [lt_div_iff₀ hden', div_lt_iff₀ hden', Bool.and_eq_true, decide_eq_true_eq, decide_eq_true_eq]
    norm_cast

/-- The value of a decimal in quarter quanta. -/
theorem quarterQuanta_eq (d : Decimal) :
    ((quarterQuanta d).1 : ℚ) / (quarterQuanta d).2 = 4 * unit * d.value := by
  simp only [quarterQuanta, value, ← scale_eq]
  push_cast
  ring

/-- Whether a decimal rounds to a number depends on its value alone. -/
theorem rounds_iff {d : Decimal} {x : Binary64.Finite} :
    d.rounds x = true ↔ (interval x).Holds (4 * unit * d.value) := by
  have hden : 0 < (quarterQuanta d).2 := by
    simp only [quarterQuanta]
    exact (scale_pos d.exponent).2
  rw [← quarterQuanta_eq, ← Interval.contains_iff hden, rounds]

theorem rounds_congr {d e : Decimal} {x : Binary64.Finite} (h : d.value = e.value) :
    d.rounds x = e.rounds x := by
  rw [Bool.eq_iff_iff, rounds_iff, rounds_iff, h]

/-! ### The search -/

theorem neighbour?_eq_some {fits : Nat → Bool} {num den c : Nat} (h : neighbour? fits num den = some c) :
    fits c = true := by
  unfold neighbour? at h
  grind

theorem neighbour?_isSome {fits : Nat → Bool} {num den : Nat}
    (h : fits (num / den) = true ∨ fits (num / den + 1) = true) : (neighbour? fits num den).isSome := by
  unfold neighbour?
  grind

theorem onGrid_eq_some {x : Binary64.Finite} {exponent : Int} {d : Decimal}
    (h : onGrid x exponent = some d) : d.rounds x = true := by
  unfold onGrid at h
  obtain ⟨c, hc, rfl⟩ := Option.map_eq_some_iff.1 h
  exact neighbour?_eq_some hc

/-- Where a point of a grid lies beside the interval of a number, all counted over the same bound. -/
theorem rounds_mk_iff {c : Nat} {exponent : Int} {x : Binary64.Finite} :
    rounds ⟨c, exponent⟩ x = true ↔
      let step := x.step (scale exponent).2
      let num := x.quanta * (scale exponent).2
      let point := c * ((scale exponent).1 * unit)
      4 * num ≤ 4 * point + x.descent * step ∧ 4 * point ≤ 4 * num + 2 * step ∧
        (x.significand % 2 = 1 → 4 * num < 4 * point + x.descent * step ∧ 4 * point < 4 * num + 2 * step) := by
  have hnum : x.significand * x.step (scale exponent).2 = x.quanta * (scale exponent).2 := by
    simp only [Binary64.Finite.step, Binary64.Finite.quanta, Nat.pow_eq]
    ring
  have hpoint : c * (scale exponent).1 * (4 * unit) = 4 * (c * ((scale exponent).1 * unit)) := by ring
  simp only [rounds, quarterQuanta]
  rw [Binary64.contains_interval_iff, hnum, hpoint]

/-- A grid whose steps are shorter than the interval of a number has a point in it. -/
theorem onGrid_isSome {x : Binary64.Finite} {exponent : Int}
    (h : 4 * ((scale exponent).1 * unit) < (2 + x.descent) * x.step (scale exponent).2) :
    (onGrid x exponent).isSome := by
  have hstep : 0 < x.step (scale exponent).2 := Nat.mul_pos (scale_pos exponent).2 (Nat.pow_pos (by decide))
  have hdescent : 0 < x.descent * x.step (scale exponent).2 := Nat.mul_pos x.descent_pos hstep
  simp only [onGrid, Option.isSome_map]
  refine neighbour?_isSome ?_
  simp only [rounds_mk_iff, Nat.add_mul, Nat.one_mul]
  rw [Nat.add_mul] at h
  have hsplit := Nat.div_add_mod (x.quanta * (scale exponent).2) ((scale exponent).1 * unit)
  rw [Nat.mul_comm] at hsplit
  have hrest := Nat.mod_lt (x.quanta * (scale exponent).2)
    (Nat.mul_pos (scale_pos exponent).1 Binary64.unit_pos)
  generalize x.quanta * (scale exponent).2 / ((scale exponent).1 * unit) * ((scale exponent).1 * unit) = point at *
  generalize x.quanta * (scale exponent).2 = num at *
  generalize (scale exponent).1 * unit = grid at *
  generalize x.descent * x.step (scale exponent).2 = down at *
  omega

theorem search_eq_some {x : Binary64.Finite} {leading : Int} {digits k fuel : Nat} (hk : k < fuel)
    (h : (onGrid x (leading + 1 - (digits + k : Nat))).isSome) :
    ∃ d, search x leading digits fuel = some d ∧ d.rounds x = true := by
  induction k generalizing digits fuel with
  | zero =>
    obtain ⟨fuel, rfl⟩ := Nat.exists_eq_succ_of_ne_zero (Nat.ne_of_gt hk)
    obtain ⟨d, hd⟩ := Option.isSome_iff_exists.1 h
    rw [Nat.add_zero] at hd
    exact ⟨d, by rw [search, hd], onGrid_eq_some hd⟩
  | succ k ih =>
    obtain ⟨fuel, rfl⟩ := Nat.exists_eq_succ_of_ne_zero (Nat.ne_of_gt (Nat.zero_lt_of_lt hk))
    rw [search]
    split
    next d hd => exact ⟨d, rfl, onGrid_eq_some hd⟩
    next => exact ih (Nat.lt_of_succ_lt_succ hk) (by rwa [Nat.succ_add_eq_add_succ])

/-- Seventeen digits single out every number: it has less than `2 ^ 53 < 10 ^ 16` steps. -/
theorem onGrid_seventeen {x : Binary64.Finite} (hx : x.significand ≠ 0) :
    (onGrid x (leadingExponent x.quanta unit - 16)).isSome := by
  have hquanta : x.quanta ≠ 0 := Nat.mul_ne_zero hx (Nat.pow_pos (by decide : 0 < 2)).ne'
  have hleading := pow_leadingExponent_le hquanta Binary64.unit_pos.ne'
  generalize leadingExponent x.quanta unit = leading at *
  have hdown := (scale_pos (leading - 16)).2
  have hgrid : (scale (leading - 16)).1 * unit * 10 ^ 16 ≤ x.quanta * (scale (leading - 16)).2 := by
    have hdown' : ((scale (leading - 16)).2 : ℚ) ≠ 0 := by exact_mod_cast hdown.ne'
    have hscale : ((scale (leading - 16)).1 : ℚ) * 10 ^ 16 = 10 ^ leading * (scale (leading - 16)).2 := by
      rw [← div_eq_div_iff hdown' (by norm_num), scale_eq, zpow_sub₀ (by norm_num)]
      norm_num
    have hle : ((scale (leading - 16)).1 : ℚ) * unit * 10 ^ 16 ≤ x.quanta * (scale (leading - 16)).2 := by
      calc ((scale (leading - 16)).1 : ℚ) * unit * 10 ^ 16
          = 10 ^ leading * unit * (scale (leading - 16)).2 := by rw [mul_right_comm, hscale]; ring
        _ ≤ x.quanta * (scale (leading - 16)).2 := by gcongr
    exact_mod_cast hle
  have hdigits : 4 * x.significand < (2 + x.descent) * 10 ^ 16 := by
    have hsize := x.bounds.1
    unfold Binary64.Finite.descent
    split <;> omega
  have hstep : 0 < x.step (scale (leading - 16)).2 := Nat.mul_pos hdown (Nat.pow_pos (by decide))
  refine onGrid_isSome (Nat.lt_of_mul_lt_mul_right (a := 10 ^ 16) ?_)
  calc 4 * ((scale (leading - 16)).1 * unit) * 10 ^ 16
      = 4 * ((scale (leading - 16)).1 * unit * 10 ^ 16) := by ring
    _ ≤ 4 * (x.quanta * (scale (leading - 16)).2) := Nat.mul_le_mul_left 4 hgrid
    _ = 4 * x.significand * x.step (scale (leading - 16)).2 := by
      simp only [Binary64.Finite.quanta, Binary64.Finite.step, Nat.pow_eq]
      ring
    _ < (2 + x.descent) * 10 ^ 16 * x.step (scale (leading - 16)).2 :=
      Nat.mul_lt_mul_of_pos_right hdigits hstep
    _ = (2 + x.descent) * x.step (scale (leading - 16)).2 * 10 ^ 16 := by ring

theorem shortest_rounds {x : Binary64.Finite} (hx : x.significand ≠ 0) : (shortest x).rounds x = true := by
  have hgrid : (onGrid x (leadingExponent x.quanta unit + 1 - (1 + 16 : Nat))).isSome := by
    rw [show leadingExponent x.quanta unit + 1 - ((1 + 16 : Nat) : Int) =
      leadingExponent x.quanta unit - 16 by omega]
    exact onGrid_seventeen hx
  obtain ⟨d, hd, hrounds⟩ := search_eq_some (by decide : 16 < 17) hgrid
  simp only [shortest, if_neg hx, hd]
  rwa [rounds_congr (value_trimZeros d 20)]

/-! ### Reading back -/

theorem two_unit_lt : 2 * unit < 10 ^ 330 := by decide +kernel

theorem largest_lt : 2 ^ 53 * 2 ^ 2045 < 10 ^ 310 * unit := by decide +kernel

/-- The point of a grid that a decimal is. -/
theorem point_eq (d : Decimal) :
    ((d.coefficient * ((scale d.exponent).1 * unit) : Nat) : ℚ) = unit * d.value * (scale d.exponent).2 := by
  have hdown : ((scale d.exponent).2 : ℚ) ≠ 0 := by exact_mod_cast (scale_pos d.exponent).2.ne'
  generalize unit = quantum
  rw [value, ← scale_eq]
  push_cast
  field_simp

/-- The magnitude of a number is a whole number of its steps. -/
theorem quanta_mul (x : Binary64.Finite) (den : Nat) : x.quanta * den = x.significand * x.step den := by
  simp only [Binary64.Finite.quanta, Binary64.Finite.step, Nat.pow_eq]
  ring

/-- What rounds to a number is not below half a quantum. -/
theorem one_lt_of_rounds {d : Decimal} {x : Binary64.Finite} (hx : x.significand ≠ 0)
    (h : d.rounds x = true) : 1 < 10 ^ 330 * d.value := by
  obtain ⟨hlow, -, -⟩ := rounds_mk_iff.1 h
  have hdown := (scale_pos d.exponent).2
  have hpoint := point_eq d
  rw [quanta_mul] at hlow
  generalize (scale d.exponent).2 = down at *
  generalize d.coefficient * ((scale d.exponent).1 * unit) = point at *
  have hstep : down ≤ x.step down := Nat.le_mul_of_pos_right _ (Nat.pow_pos (by decide))
  have hnum := Nat.mul_le_mul_right (x.step down) (Nat.one_le_iff_ne_zero.2 hx)
  have hdescent := Nat.mul_le_mul_right (x.step down) x.descent_le
  have hhalf : (down : ℚ) ≤ 2 * (unit * d.value * down) := by
    rw [← hpoint]
    exact_mod_cast (by omega : down ≤ 2 * point)
  have hdown' : (0 : ℚ) < down := by exact_mod_cast hdown
  have hunit : (2 * unit : ℚ) < 10 ^ 330 := by exact_mod_cast two_unit_lt
  have hone : 1 ≤ 2 * unit * d.value := by
    refine le_of_mul_le_mul_right ?_ hdown'
    linarith
  have hpositive : 0 < d.value := by
    refine d.value_nonneg.lt_of_ne fun h0 => ?_
    rw [← h0] at hone
    linarith
  calc 1 ≤ 2 * unit * d.value := hone
    _ < 10 ^ 330 * d.value := mul_lt_mul_of_pos_right hunit hpositive

/-- What rounds to a number is below every number that is too large. -/
theorem lt_of_rounds {d : Decimal} {x : Binary64.Finite} (h : d.rounds x = true) : d.value < 10 ^ 310 := by
  obtain ⟨-, hhigh, -⟩ := rounds_mk_iff.1 h
  obtain ⟨hsize, -, hshift⟩ := x.bounds
  have hdown := (scale_pos d.exponent).2
  have hpoint := point_eq d
  rw [quanta_mul] at hhigh
  generalize (scale d.exponent).2 = down at *
  generalize d.coefficient * ((scale d.exponent).1 * unit) = point at *
  obtain ⟨top, hpow, hlargest⟩ : ∃ top, 2 ^ x.shift ≤ top ∧ 2 ^ 53 * top < 10 ^ 310 * unit := by
    have hle {n : Nat} (hn : x.shift ≤ n) : 2 ^ x.shift ≤ 2 ^ n := Nat.pow_le_pow_right (by decide) hn
    exact ⟨_, hle hshift, largest_lt⟩
  have hstep : x.step down ≤ top * down := by
    rw [Binary64.Finite.step, Nat.mul_comm]
    exact Nat.mul_le_mul_right _ hpow
  have hpositive : 0 < x.step down := Nat.mul_pos hdown (Nat.pow_pos (by decide))
  have hnum := Nat.mul_le_mul_right (x.step down) (by omega : x.significand + 1 ≤ 2 ^ 53)
  rw [Nat.add_mul] at hnum
  have hbound : point < 10 ^ 310 * unit * down := by
    calc point < 2 ^ 53 * x.step down := by omega
      _ ≤ 2 ^ 53 * (top * down) := Nat.mul_le_mul_left _ hstep
      _ = 2 ^ 53 * top * down := (Nat.mul_assoc _ _ _).symm
      _ < 10 ^ 310 * unit * down := by gcongr
  have hvalue : unit * down * d.value < unit * down * 10 ^ 310 := by
    calc (unit * down * d.value : ℚ) = point := by rw [hpoint]; ring
      _ < 10 ^ 310 * unit * down := by exact_mod_cast hbound
      _ = unit * down * 10 ^ 310 := by rw [mul_assoc, mul_comm]
  have hunit : (0 : ℚ) < unit * down := by exact_mod_cast Nat.mul_pos Binary64.unit_pos hdown
  exact lt_of_mul_lt_mul_left hvalue hunit.le

theorem coefficient_ne_zero_of_rounds {d : Decimal} {x : Binary64.Finite} (hx : x.significand ≠ 0)
    (h : d.rounds x = true) : d.coefficient ≠ 0 := by
  intro h0
  have hone := one_lt_of_rounds hx h
  rw [value_eq_zero_iff.2 h0, mul_zero] at hone
  norm_num at hone

/-- The exponents that are settled without the power are out of reach of the finite numbers. -/
theorem reach_of_rounds {d : Decimal} {x : Binary64.Finite} (hx : x.significand ≠ 0)
    (h : d.rounds x = true) :
    -330 ≤ d.exponent + digitCount d.coefficient ∧ d.exponent + digitCount d.coefficient ≤ 310 := by
  have hpow : (0 : ℚ) < 10 ^ d.exponent := zpow_pos (by norm_num) _
  constructor
  · by_contra hlow
    have hlt : d.value < 10 ^ (-330 : Int) := by
      calc d.value < 10 ^ (digitCount d.coefficient : Int) * 10 ^ d.exponent :=
            mul_lt_mul_of_pos_right (lt_pow_digitCount _) hpow
        _ = 10 ^ (digitCount d.coefficient + d.exponent) := (zpow_add₀ (by norm_num) _ _).symm
        _ ≤ 10 ^ (-330 : Int) := zpow_le_zpow_right₀ (by norm_num) (by omega)
    have hone := one_lt_of_rounds hx h
    have hinv : (10 : ℚ) ^ 330 * 10 ^ (-330 : Int) = 1 := by
      rw [← zpow_natCast, ← zpow_add₀ (by norm_num)]
      simp
    have hbelow : (10 : ℚ) ^ 330 * d.value < 10 ^ 330 * 10 ^ (-330 : Int) :=
      mul_lt_mul_of_pos_left hlt (pow_pos (by norm_num) _)
    rw [hinv] at hbelow
    exact absurd hone (not_lt.2 hbelow.le)
  · by_contra hhigh
    have hle : (10 : ℚ) ^ (310 : Int) ≤ d.value := by
      calc (10 : ℚ) ^ (310 : Int) ≤ 10 ^ ((digitCount d.coefficient : Int) - 1 + d.exponent) :=
            zpow_le_zpow_right₀ (by norm_num) (by omega)
        _ = 10 ^ ((digitCount d.coefficient : Int) - 1) * 10 ^ d.exponent := zpow_add₀ (by norm_num) _ _
        _ ≤ d.value := mul_le_mul_of_nonneg_right
            (pow_digitCount_le (coefficient_ne_zero_of_rounds hx h)) hpow.le
    have hlt := lt_of_rounds h
    rw [← zpow_natCast] at hlt
    exact absurd hle (not_le.2 (by exact_mod_cast hlt))

theorem toBinary64_of_rounds {d : Decimal} {x : Binary64.Finite} (negative : Bool)
    (hx : x.significand ≠ 0) (h : d.rounds x = true) :
    d.toBinary64 negative = .finite { x with negative } := by
  obtain ⟨hlow, hhigh⟩ := reach_of_rounds hx h
  simp only [toBinary64]
  rw [if_neg (coefficient_ne_zero_of_rounds hx h), if_neg (by omega), if_neg (by omega)]
  refine Binary64.ofQuanta_of_contains negative (scale_pos d.exponent).2 ?_
  simp only [rounds, quarterQuanta] at h
  rwa [show 4 * (d.coefficient * (scale d.exponent).1 * unit)
    = d.coefficient * (scale d.exponent).1 * (4 * unit) by ring]

/-- The shortest decimal of any number but zero is not zero. -/
theorem shortest_coefficient (x : Binary64.Finite) :
    (shortest x).coefficient ≠ 0 ∨ shortest x = ⟨0, 0⟩ := by
  by_cases hx : x.significand = 0
  · exact .inr (by rw [shortest, if_pos hx])
  · exact .inl (coefficient_ne_zero_of_rounds hx (shortest_rounds hx))

/-- A decimal with the value of the shortest one of a number is read as that number. -/
theorem toBinary64_of_value {d : Decimal} {x : Binary64.Finite} (negative : Bool)
    (h : d.value = (shortest x).value) : d.toBinary64 negative = .finite { x with negative } := by
  by_cases hx : x.significand = 0
  · have hd : d.coefficient = 0 := by
      rw [← value_eq_zero_iff, h, value_eq_zero_iff, shortest, if_pos hx]
    have hshift : x.shift = 0 := by
      have := x.bounds.2.1
      omega
    simp only [toBinary64, if_pos hd, Binary64.zero]
    obtain ⟨_, _, _, _⟩ := x
    subst hx hshift
    rfl
  · refine toBinary64_of_rounds negative hx ?_
    rw [rounds_congr h]
    exact shortest_rounds hx

end Foreach.Decimal
